import TemplatedSql.Toml.Value

/-!
# Open tables

While a document is read its tables are open: later statements add to them. A table may be opened by
one header only, keys with points may add only to tables that such keys made, and no key is given two
values. A table that was needed on the way to another may still get a header of its own.
-/

namespace TemplatedSql.Toml

/-- How a table came to be. -/
inductive TableOrigin
  /-- It has a header. -/
  | headed
  /-- It stands in the path of a header. -/
  | implied
  /-- It stands in the path of a key. -/
  | dotted
deriving DecidableEq

/-- What a key stands for. The tables of an array are listed from the last to the first. -/
inductive Item
  | value (value : Value)
  | table (origin : TableOrigin) (entries : List (String × Item))
  | tables (items : List (List (String × Item)))

/-- The entries of an open table. -/
abbrev Entries := List (String × Item)

mutual

/-- The value that an item has in the end. -/
def Item.close : Item → Value
  | .value v => v
  | .table _ entries => .table (Entries.close entries)
  | .tables items => .array (Entries.closeAll items)

/-- The entries in the end, in the order of their keys. -/
def Entries.close : Entries → List (String × Value)
  | [] => []
  | (key, item) :: entries => insertEntry key item.close (Entries.close entries)

/-- The tables of an array in the end, from the first to the last. -/
def Entries.closeAll : List Entries → List Value
  | [] => []
  | entries :: items => Entries.closeAll items ++ [.table (Entries.close entries)]

end

namespace Entries

/-- Changes what a key stands for. -/
def change (key : String) (f : Option Item → Option Item) : Entries → Option Entries
  | [] => (f none).map fun item => [(key, item)]
  | (k, item) :: entries =>
    if k = key then (f (some item)).map fun item => (k, item) :: entries
    else (change key f entries).map ((k, item) :: ·)

/-- Changes the table at the path of a header. -/
def within (f : Entries → Option Entries) : List String → Entries → Option Entries
  | [], entries => f entries
  | key :: path, entries =>
    entries.change key fun
      | none => (within f path []).map (.table .implied)
      | some (.table origin inner) => (within f path inner).map (.table origin)
      | some (.tables (last :: earlier)) => (within f path last).map fun t => .tables (t :: earlier)
      | _ => none

/-- Opens the table that a header names. -/
def openTable (path : List String) (entries : Entries) : Option Entries := do
  let key ← path.getLast?
  entries.within (fun inner => inner.change key fun
    | none => some (.table .headed [])
    | some (.table .implied inner) => some (.table .headed inner)
    | _ => none) path.dropLast

/-- Opens one more table of the array that a header names. -/
def openItem (path : List String) (entries : Entries) : Option Entries := do
  let key ← path.getLast?
  entries.within (fun inner => inner.change key fun
    | none => some (.tables [[]])
    | some (.tables items) => some (.tables ([] :: items))
    | _ => none) path.dropLast

/-- Gives a value to a key. The table that gets it is the one at hand or one that keys made. -/
def assign (path : List String) (v : Value) (entries : Entries) : Option Entries :=
  match path with
  | [] => none
  | [key] =>
    entries.change key fun
      | none => some (.value v)
      | some _ => none
  | key :: next :: path =>
    entries.change key fun
      | none => (assign (next :: path) v []).map (.table .dotted)
      | some (.table .dotted inner) => (assign (next :: path) v inner).map (.table .dotted)
      | some (.table .implied inner) =>
        if path = [] then none else (assign (next :: path) v inner).map (.table .implied)
      | some (.tables (last :: earlier)) =>
        if path = [] then none
        else (assign (next :: path) v last).map fun t => .tables (t :: earlier)
      | _ => none

end Entries

end TemplatedSql.Toml
