import TemplatedSql.Error

/-!
# Diagnostics

A diagnostic is what the user sees of an error or a warning: a stable code, a severity, a message and,
where there is one, a place in a file. The codes are part of the interface and do not change.
-/

namespace TemplatedSql

/-- The kinds of diagnostic. -/
inductive DiagnosticCode
  | templateLexError
  | templateParseError
  | undefinedFunction
  | notCallable
  | missingArgument
  | unknownArgument
  | typeMismatch
  | renderError
  | duplicateDefinition
  | modelNotFound
  | ioError
  | emptyOutput
deriving DecidableEq

/-- The stable spelling of a code. -/
def DiagnosticCode.text : DiagnosticCode → String
  | templateLexError => "TEMPLATE_LEX_ERROR"
  | templateParseError => "TEMPLATE_PARSE_ERROR"
  | undefinedFunction => "UNDEFINED_FUNCTION"
  | notCallable => "NOT_CALLABLE"
  | missingArgument => "MISSING_ARGUMENT"
  | unknownArgument => "UNKNOWN_ARGUMENT"
  | typeMismatch => "TYPE_MISMATCH"
  | renderError => "RENDER_ERROR"
  | duplicateDefinition => "DUPLICATE_DEFINITION"
  | modelNotFound => "MODEL_NOT_FOUND"
  | ioError => "IO_ERROR"
  | emptyOutput => "EMPTY_OUTPUT"

/-- How bad a finding is. -/
inductive Severity
  | warn
  | error
deriving DecidableEq

namespace Severity

/-- How a severity is written. -/
def text : Severity → String
  | warn => "warn"
  | error => "error"

/-- Whether a severity is worse than a warning. -/
def aboveWarn : Severity → Bool
  | warn => false
  | error => true

end Severity

/-- A place in a file. A column counts only together with a line. -/
structure Location where
  file : String
  line : Option Nat := none
  column : Option Nat := none
deriving DecidableEq

/-- The file, and the line and the column where they are known. -/
def Location.text (l : Location) : String :=
  match l.line, l.column with
  | none, _ => l.file
  | some line, none => s!"{l.file}:{line}"
  | some line, some column => s!"{l.file}:{line}:{column}"

/-- A finding. -/
structure Diagnostic where
  code : DiagnosticCode
  severity : Severity
  message : String
  location : Option Location := none
deriving DecidableEq

/-- The place, the severity with the code, and the message. -/
def Diagnostic.text (d : Diagnostic) : String :=
  let place := d.location.elim "" fun l => l.text ++ ": "
  s!"{place}{d.severity.text}[{d.code.text}]: {d.message}"

/-- The code of a cause. -/
def Cause.code : Cause → DiagnosticCode
  | lex _ => .templateLexError
  | parse .. => .templateParseError
  | undefinedFunction _ => .undefinedFunction
  | notCallable .. => .notCallable
  | missingArgument .. => .missingArgument
  | unknownArgument .. | tooManyArguments .. => .unknownArgument
  | typeMismatch _ => .typeMismatch
  | recursionLimit _ | runtime _ => .renderError

/-- The diagnostic of a template error in a file. -/
def TemplateError.diagnostic (e : TemplateError) (file : String) : Diagnostic where
  code := e.cause.code
  severity := .error
  message := e.cause.message
  location := some ⟨file, e.position.line, e.position.column⟩

end TemplatedSql
