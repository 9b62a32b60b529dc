import TemplatedSql.Error
import TemplatedSql.Value

/-!
# Arguments of a call

A function finds an argument by its name, or else by its place among the arguments without a name.
-/

namespace TemplatedSql

/-- An evaluated argument; a positional one has no name. -/
structure Argument where
  name : Option String
  value : Value

namespace Argument

/-- The argument of a name, or the positional argument of a place counted from zero. -/
def find? (arguments : List Argument) (place : Nat) (name : String) : Option Value :=
  (arguments.find? (·.name == some name) <|> (arguments.filter (·.name.isNone))[place]?).map (·.value)

/-- A string that has to be given. -/
def string (arguments : List Argument) (place : Nat) (name function : String) : Except Cause String :=
  match find? arguments place name with
  | some (.string s) => .ok s
  | some v => .error (.typeMismatch s!"{function}() argument `{name}` must be a string, got {v.kind}")
  | none => .error (.runtime s!"{function}() is missing argument `{name}`")

/-- A string that may be left out or undefined. -/
def string? (arguments : List Argument) (place : Nat) (name function : String) :
    Except Cause (Option String) :=
  match find? arguments place name with
  | none | some .undefined => .ok none
  | some _ => some <$> string arguments place name function

end Argument

end TemplatedSql
