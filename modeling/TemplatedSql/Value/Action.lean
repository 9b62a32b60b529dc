import TemplatedSql.Value.Method

/-!
# What native functions do

A native function has no access to the scopes. It answers a call with an action: a result, a failure at
the place of the call, or a step that logs a message, reads a variable or binds one, and then goes on.
The evaluator performs the action in a scope of its own. Those are the steps that the built-in functions
and the functions of a project take. A host might do more with the context that it is handed: call a
function, open a scope, render a body, or look a name up without importing it. There is no action for
that.
-/

namespace TemplatedSql

/-- What a native function does when called. -/
inductive Action
  | finish (value : Value)
  | fail (cause : Cause)
  | log (message : String) (next : Action)
  | read (name : String) (next : Value → Action)
  | bind (name : String) (value : Value) (next : Action)

/-- The action that only computes. -/
def Action.ofExcept : Except Cause Value → Action
  | .ok v => .finish v
  | .error cause => .fail cause

/-- A native function of the program that renders templates. -/
structure HostFunction where
  name : String
  act : Position → List Argument → Action

/-- The most items that a range may have. -/
def maxRangeItems : Nat := 100000

/-- The integer that an argument of `range` is, as far as 64 bits hold it. -/
def Argument.integer (a : Argument) : Except Cause Int :=
  let mismatch : Cause := .typeMismatch s!"range() expects integers, got {a.value.kind}"
  match a.value with
  | .number n =>
    match Number.integer? n with
    | some i => .ok (Number.clamp64 i)
    | none => .error mismatch
  | _ => .error mismatch

/-- How many steps lead from `start` to just before `stop`: the distance divided by the step, rounded
up. -/
def rangeCount (start stop step : Int) : Nat :=
  let span := if 0 < step then stop - start else start - stop
  if span ≤ 0 then 0 else ((span - 1) / step.natAbs + 1).toNat

/-- The integers from `start` to before `stop` in steps. -/
def rangeItems (start stop step : Int) : Except Cause (List Int) :=
  if step = 0 then .error (.runtime "range() step must not be zero")
  else
    let count := rangeCount start stop step
    if maxRangeItems < count then
      .error (.runtime s!"range() would produce {count} items, limit is {maxRangeItems}")
    else .ok ((List.range count).map fun (i : Nat) => start + i * step)

/-- The list that `range` gives. Names of arguments do not matter. -/
def rangeValue (arguments : List Argument) : Except Cause Value := do
  let bounds ← arguments.mapM Argument.integer
  let items ←
    match bounds with
    | [stop] => rangeItems 0 stop 1
    | [start, stop] => rangeItems start stop 1
    | [start, stop, step] => rangeItems start stop step
    | _ => .error (.runtime s!"range() takes 1 to 3 arguments, got {bounds.length}")
  .ok (.list (items.map fun i => .number (.ofInt i)))

/-- The size that `len` gives: of a string, its characters. -/
def lenValue (arguments : List Argument) : Except Cause Value :=
  let size (n : Nat) : Except Cause Value := .ok (.number (.ofNat n))
  match Argument.find? arguments 0 "value" with
  | some (.string s) => size s.length
  | some (.list items) => size items.length
  | some (.mapping entries) => size entries.length
  | some v => .error (.typeMismatch s!"len() of {v.kind} is not defined")
  | none => .error (.runtime "len() is missing argument `value`")

/-- What a built-in function does. -/
def Builtin.act (b : Builtin) (arguments : List Argument) : Action :=
  let message := (Argument.find? arguments 0 "msg").map Value.text
  match b with
  | range => .ofExcept (rangeValue arguments)
  | len => .ofExcept (lenValue arguments)
  | log => .log (message.getD "") (.finish .undefined)
  | raiseError => .fail (.runtime (message.getD "raise_error() called"))

end TemplatedSql
