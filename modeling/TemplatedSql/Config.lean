import TemplatedSql.FileTree
import TemplatedSql.Toml.Document

/-!
# Project configuration

A configuration names the project, its directories, the target that the SQL is written for, and the
variables that templates can read. Every setting has a default, unknown ones are ignored, and one of the
wrong type makes the whole configuration unreadable.
-/

namespace TemplatedSql

/-- The directories that hold each kind of file, and the patterns of the files that are left out. -/
structure SourcePaths where
  macros : List String := ["macros"]
  models : List String := ["models"]
  tests : List String := ["tests"]
  exclude : List String := []

/-- Whether a text fits a pattern: before and after the first star it has the same characters as the
pattern, and a pattern of nothing but one or two stars fits everything. -/
def fitsPattern (pattern cs : List Char) : Bool :=
  let start := pattern.takeWhile (· != '*')
  match pattern.drop start.length with
  | [] => pattern == cs
  | _ :: ending =>
    pattern == ['*', '*'] ||
      (start.length + ending.length ≤ cs.length && start.isPrefixOf cs && ending.isSuffixOf cs)

/-- Whether a file is left out. -/
def SourcePaths.excludes (paths : SourcePaths) (file : String) : Bool :=
  paths.exclude.any fun pattern => fitsPattern pattern.toList file.toList

/-- What the SQL is written for. -/
structure Target where
  name : String := "dev"
  schema : String := "public"
  database : Option String := none

/-- The name of a relation in the target: the database if there is one, the schema, and the name. -/
def Target.relation (target : Target) (name : String) : String :=
  match target.database with
  | some database => s!"{database}.{target.schema}.{name}"
  | none => s!"{target.schema}.{name}"

/-- Why there is no configuration. What is wrong with an unreadable text is not told apart. -/
inductive ConfigError
  | file (error : ReadError)
  | content
deriving DecidableEq

/-- The wording of an error. -/
def ConfigError.message : ConfigError → String
  | file e => s!"IO error: {e.message}"
  | content => "Parse error: not a configuration"

/-- The configuration of a project. -/
structure Config where
  name : String := "jinsql"
  /-- How many workers compile files, where this does not depend on the machine. -/
  threads : Option Nat := none
  paths : SourcePaths := {}
  target : Target := {}
  vars : List (String × Toml.Value) := []

namespace Config

open Toml (Value)

/-- Reads a setting with a default. -/
def setting {α : Type} (read? : Value → Option α) (v : Option Value) (default : α) : Option α :=
  match v with
  | none => some default
  | some v => read? v

/-- The text of a setting. -/
def string? : Value → Option String
  | .string s => some s
  | _ => none

/-- The texts of a setting. -/
def strings? : Value → Option (List String)
  | .array vs => vs.mapM string?
  | _ => none

/-- The number of threads of a setting, where zero leaves it to the machine. -/
def threads? : Value → Option (Option Nat)
  | .integer i => if i < 0 then none else some (if i = 0 then none else some i.toNat)
  | _ => none

/-- The entries of a setting that is a table. -/
def table? : Value → Option (List (String × Value))
  | .table entries => some entries
  | _ => none

/-- The fields of a group of settings, as a table or as an array in the order of the fields. -/
def fields? (names : List String) : Value → Option (List (String × Value))
  | .table entries => some entries
  | .array vs => some (names.zip vs)
  | _ => none

/-- The directories and patterns of a group of settings. -/
def paths? (v : Value) : Option SourcePaths := do
  let fields ← fields? ["macros", "models", "tests", "exclude"] v
  let defaults : SourcePaths := {}
  some {
    macros := ← setting strings? (fields.lookup "macros") defaults.macros
    models := ← setting strings? (fields.lookup "models") defaults.models
    tests := ← setting strings? (fields.lookup "tests") defaults.tests
    exclude := ← setting strings? (fields.lookup "exclude") defaults.exclude }

/-- The target of a group of settings. -/
def target? (v : Value) : Option Target := do
  let fields ← fields? ["name", "schema", "database"] v
  let defaults : Target := {}
  some {
    name := ← setting string? (fields.lookup "name") defaults.name
    schema := ← setting string? (fields.lookup "schema") defaults.schema
    database := ← setting (fun v => (string? v).map some) (fields.lookup "database") none }

/-- Reads a configuration from TOML. -/
def ofToml? (source : String) : Option Config := do
  let fields ← Toml.Document.ofSource? source
  let defaults : Config := {}
  some {
    name := ← setting string? (fields.lookup "name") defaults.name
    threads := ← setting threads? (fields.lookup "threads") none
    paths := ← setting paths? (fields.lookup "paths") defaults.paths
    target := ← setting target? (fields.lookup "target") defaults.target
    vars := ← setting table? (fields.lookup "vars") [] }

/-- Reads the configuration in a file. -/
def load (here : WorkingDirectory) (p : Path) : Except ConfigError Config := do
  let source ← (here.read p).mapError .file
  match ofToml? source with
  | some c => .ok c
  | none => .error .content

end Config

end TemplatedSql
