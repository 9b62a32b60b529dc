import TemplatedSql.Table
import TemplatedSql.Value

/-!
# Scopes

The scopes of a rendering stand in an arena and name their parents by index, so a macro can remember
the scope it was defined in as a number. A scope whose block has ended gives its slot back: the slot is
emptied, and empty slots at the end of the arena are taken off and used again. A name is looked up in a
scope, then in its parent and so on; the walk ends at a scope without a parent or at an empty slot.
-/

namespace TemplatedSql

/-- The variables of a block, and the scope around it. -/
structure Scope where
  bindings : Table Value
  parent : Option Nat

/-- The slots of all scopes; an empty one belonged to a block that has ended. -/
abbrev Arena := List (Option Scope)

namespace Arena

/-- The scope in a slot, if it holds one. -/
def scope? (arena : Arena) (i : Nat) : Option Scope :=
  arena[i]?.join

/-- Whether a slot holds a scope. -/
def isLive (arena : Arena) (i : Nat) : Bool :=
  (arena.scope? i).isSome

/-- The arena with a new scope in its last slot. -/
def push (arena : Arena) (parent : Option Nat) : Arena :=
  arena ++ [some ⟨[], parent⟩]

/-- The arena without the empty slots at its end. -/
def trim (arena : Arena) : Arena :=
  (arena.reverse.dropWhile Option.isNone).reverse

/-- The arena after the block of a scope has ended. -/
def release (arena : Arena) (i : Nat) : Arena :=
  trim (List.set arena i none)

/-- The arena with a variable bound in a scope; an empty slot takes no variables. -/
def bind (arena : Arena) (i : Nat) (name : String) (v : Value) : Arena :=
  match arena.scope? i with
  | some s => List.set arena i (some { s with bindings := s.bindings.set name v })
  | none => arena

/-- The value of a name in at most `fuel` scopes, from scope `i` outward. -/
def findFrom (arena : Arena) (name : String) : Nat → Nat → Option Value
  | 0, _ => none
  | fuel + 1, i =>
    match arena.scope? i with
    | none => none
    | some s =>
      match s.bindings.get? name with
      | some v => some v
      | none => s.parent.bind (arena.findFrom name fuel)

/-- The value of a name in scope `i` or the nearest scope around it. No walk outward visits more scopes
than there are slots. -/
def find? (arena : Arena) (i : Nat) (name : String) : Option Value :=
  arena.findFrom name arena.length i

end Arena

end TemplatedSql
