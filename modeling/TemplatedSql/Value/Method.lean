import TemplatedSql.Text.Blank
import TemplatedSql.Text.Casing
import TemplatedSql.Text.Search
import TemplatedSql.Value.Argument

/-!
# Methods of strings and mappings
-/

namespace TemplatedSql

/-- The list of the given texts. -/
def Value.ofTexts (texts : List (List Char)) : Value :=
  .list (texts.map fun cs => .string (.ofList cs))

/-- The result of a method of a string. -/
def StringMethod.apply (m : StringMethod) (s : String) (arguments : List Argument) : Except Cause Value :=
  let text (cs : List Char) : Except Cause Value := .ok (.string (.ofList cs))
  let required (place : Nat) (name : String) : Except Cause (List Char) :=
    String.toList <$> Argument.string arguments place name m.name
  let optional (name : String) : Except Cause (Option (List Char)) :=
    Option.map String.toList <$> Argument.string? arguments 0 name m.name
  let cs := s.toList
  match m with
  | upper => text (Text.upper cs)
  | lower => text (Text.lower cs)
  | strip => do
    match ← optional "chars" with
    | some drop => text (Text.stripAny drop cs)
    | none => text (Text.trim cs)
  | replace => do
    let old ← required 0 "old"
    let new ← required 1 "new"
    text (Text.replace old new cs)
  | split => do
    match ← optional "sep" with
    | some (c :: sep) => .ok (.ofTexts (Text.split (c :: sep) cs))
    | _ => .ok (.ofTexts (Text.words cs))
  | startsWith => do
    let start ← required 0 "prefix"
    .ok (.boolean (start.isPrefixOf cs))
  | endsWith => do
    let ending ← required 0 "suffix"
    .ok (.boolean (ending.isSuffixOf cs))
  | join =>
    match Argument.find? arguments 0 "items" with
    | some (.list items) => text (Text.join cs (items.map fun v => v.text.toList))
    | some v => .error (.typeMismatch s!"join() expects a list, got {v.kind}")
    | none => .error (.typeMismatch "join() expects a list, got nothing")

/-- The result of a method of a mapping. -/
def MappingMethod.apply (m : MappingMethod) (entries : List (String × Value)) (arguments : List Argument) :
    Value :=
  match m with
  | keys => .list (entries.map fun e => .string e.1)
  | values => .list (entries.map (·.2))
  | items => .list (entries.map fun e => .list [.string e.1, e.2])
  | get =>
    let found :=
      match Argument.find? arguments 0 "key" with
      | some (.string key) => entries.lookup key
      | _ => none
    (found <|> Argument.find? arguments 1 "default").getD .undefined

end TemplatedSql
