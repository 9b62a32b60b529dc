/-!
# TOML values

A date or a time is kept as the text it is normally written as.
-/

namespace TemplatedSql.Toml

/-- A value of a TOML document. The entries of a table are in the order of their keys. -/
inductive Value
  | string (value : String)
  | integer (value : Int)
  | float (value : Float)
  | boolean (value : Bool)
  | datetime (text : String)
  | array (items : List Value)
  | table (entries : List (String × Value))

/-- The entry put in its place by key. -/
def insertEntry {α : Type} (key : String) (v : α) : List (String × α) → List (String × α)
  | [] => [(key, v)]
  | (k, w) :: es => if key < k then (key, v) :: (k, w) :: es else (k, w) :: insertEntry key v es

end TemplatedSql.Toml
