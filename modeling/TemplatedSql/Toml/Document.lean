import TemplatedSql.Toml.Statement

/-!
# TOML documents

A key belongs to the table of the last header before it. What is wrong with a document is not told
apart.
-/

namespace TemplatedSql.Toml

/-- A document that is being read: its tables, and the path of the last header. -/
structure Document where
  entries : Entries := []
  header : List String := []

namespace Document

/-- The document after one more statement. -/
def add (d : Document) : Statement → Option Document
  | .header path => (d.entries.openTable path).map fun entries => ⟨entries, path⟩
  | .arrayHeader path => (d.entries.openItem path).map fun entries => ⟨entries, path⟩
  | .assign path v =>
    (d.entries.within (Entries.assign path v) d.header).map fun entries => { d with entries }

/-- The entries of a document. -/
def ofSource? (source : String) : Option (List (String × Value)) := do
  let statements ← Statement.ofSource? source
  let d ← statements.foldlM add {}
  some d.entries.close

end Document

end TemplatedSql.Toml
