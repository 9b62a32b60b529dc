import TemplatedSql.Position

/-!
# Template errors

An error is a cause and the place it is reported at. A cause keeps what went wrong apart from its
wording, which is the function `Cause.message` alone.
-/

namespace TemplatedSql

/-- What went wrong in a template. -/
inductive Cause
  /-- The text cannot be cut into tokens. -/
  | lex (reason : String)
  /-- The tokens do not follow the grammar. -/
  | parse (expected found : String)
  /-- The called expression has no value. -/
  | undefinedFunction (name : String)
  /-- The called expression has a value of another kind. -/
  | notCallable (name found : String)
  /-- A parameter without a default got no argument. -/
  | missingArgument (name parameter : String)
  /-- A named argument fits no parameter. -/
  | unknownArgument (name argument : String)
  /-- There are more positional arguments than parameters. -/
  | tooManyArguments (name : String) (expected found : Nat)
  /-- An operation got a value of the wrong kind. -/
  | typeMismatch (message : String)
  /-- Too many macros are being rendered inside one another. -/
  | recursionLimit (limit : Nat)
  /-- Any other failure of an evaluation. -/
  | runtime (message : String)
deriving DecidableEq

/-- The wording of a cause. -/
def Cause.message : Cause → String
  | lex reason => reason
  | parse expected found => s!"expected {expected}, found {found}"
  | undefinedFunction name => s!"function `{name}` not found"
  | notCallable name found => s!"expected `{name}` to be a function, got {found}"
  | missingArgument name parameter => s!"macro `{name}` is missing argument `{parameter}`"
  | unknownArgument name argument => s!"macro `{name}` has no parameter named `{argument}`"
  | tooManyArguments name expected found =>
    s!"macro `{name}` takes {expected} positional argument(s) but {found} were given"
  | typeMismatch message => message
  | recursionLimit limit => s!"maximum macro call depth of {limit} exceeded"
  | runtime message => message

/-- An error of a template: its cause and its place. -/
structure TemplateError where
  position : Position
  cause : Cause
deriving DecidableEq

/-- The error as shown to the user: its place, then its wording. -/
def TemplateError.text (e : TemplateError) : String :=
  s!"{e.position.text}: {e.cause.message}"

end TemplatedSql
