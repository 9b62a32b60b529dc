import TemplatedSql.Eval.Context

/-!
# Variables, imports and calls

A name is looked up in the scopes, then in the overlay, the globals and the library. A library template
is rendered once, in a root scope of its own, and the name is then read from that scope; it counts as
imported from before its rendering, so a cyclic import sees the part that is there. A call gets a scope
of its own: a native function's inside the caller's scope, a macro's inside the scope it was defined in.

Rendering the body of a template or a macro is left to `enter`, so nothing here is recursive.
-/

namespace TemplatedSql

/-- How many macros may be rendered inside one another. -/
def maxCallDepth : Nat := 100

/-- The values of the parameters that positional arguments give, in order. -/
def MacroDef.place (d : MacroDef) (positional : List Argument) : List (Option Value) :=
  positional.map (some ·.value) ++ List.replicate (d.parameters.length - positional.length) none

/-- The values of the parameters once an argument with a name has replaced that of its parameter. -/
def MacroDef.replace (d : MacroDef) (values : List (Option Value)) (a : Argument) :
    Except Cause (List (Option Value)) :=
  let name := a.name.getD ""
  match d.parameters.findIdx? (·.name == name) with
  | some i => .ok (values.set i (some a.value))
  | none => .error (.unknownArgument d.name name)

/-- The name of a parameter with its value, which is the default where no argument gave one. -/
def MacroDef.complete (d : MacroDef) : Parameter × Option Value → Except Cause (String × Value)
  | (p, value) =>
    match value <|> p.default.map Value.ofLiteral with
    | some v => .ok (p.name, v)
    | none => .error (.missingArgument d.name p.name)

/-- Binds the parameters of a macro: positional arguments in order, then named ones, then defaults. -/
def MacroDef.bindArguments (d : MacroDef) (arguments : List Argument) : Except Cause (Table Value) := do
  let positional := arguments.filter (·.name.isNone)
  if d.parameters.length < positional.length then
    throw (.tooManyArguments d.name d.parameters.length positional.length)
  let values ← (arguments.filter (·.name.isSome)).foldlM d.replace (d.place positional)
  (d.parameters.zip values).mapM d.complete

/-- The value of a name that needs no import. -/
def Environment.lookup (env : Environment) (c : Context) (name : String) : Option Value :=
  c.arena.find? c.current name <|> env.overlay.get? name <|> env.globals.get? name

namespace Eval

variable {α : Type} (env : Environment) (enter : Body → Address → Eval String)

/-- Evaluates in a new scope, which ends with the evaluation. -/
def inScope (parent : Nat) (m : Eval α) : Eval α := fun c =>
  let scope := c.arena.length
  andThen m (fun d => env.discard { d with current := c.current } scope)
    { c with arena := c.arena.push (some parent), current := scope }

/-- Evaluates in a new scope inside the current one. -/
def inChild (m : Eval α) : Eval α := fun c => inScope env c.current m c

/-- The root scope of a template, which is rendered first if it has not been. -/
def importTemplate (t : Template) (p : Position) : Eval Nat := fun c =>
  match c.imported.get? t.name with
  | some scope => .done scope c
  | none =>
    let scope := c.arena.length
    let rendering :=
      andThen (enter t.body ⟨.library t.name, []⟩) fun d => { d with current := c.current }
    let reported := mapError rendering fun e => ⟨p, .runtime s!"in `{t.name}`: {e.text}"⟩
    Eval.bind reported (fun _ => Eval.pure scope)
      { c with
        arena := c.arena.push none
        current := scope
        imported := c.imported.set t.name scope }

/-- The value of a name; an unknown name is undefined. -/
def readVariable (name : String) (p : Position) : Eval Value := fun c =>
  match env.lookup c name with
  | some v => .done v c
  | none =>
    match env.library.get? name with
    | none => .done .undefined c
    | some t =>
      Eval.bind (importTemplate enter t p)
        (fun scope d =>
          .done (((d.arena.scope? scope).bind fun s => s.bindings.get? name).getD .undefined) d) c

/-- Performs what a native function does, called at a place. -/
def perform (p : Position) : Action → Eval Value
  | .finish v => Eval.pure v
  | .fail cause => fail p cause
  | .log message next => do
    update fun c => { c with logs := c.logs.push (p, message) }
    perform p next
  | .read name next => do
    let v ← readVariable env enter name p
    perform p (next v)
  | .bind name v next => do
    update fun c => c.bind name v
    perform p next

/-- What a native function does with its arguments. -/
def action (p : Position) (arguments : List Argument) : Function → Action
  | .builtin b => b.act arguments
  | .stringMethod _ s m => .ofExcept (m.apply s arguments)
  | .mappingMethod _ entries m => .finish (m.apply entries arguments)
  | .host key _ => env.hosts[key]?.elim (.finish .undefined) fun f => f.act p arguments
  | .defined .. => .finish .undefined

/-- Renders the body of a macro with its parameters bound. -/
def callMacro (d : MacroDef) (address : Address) (scope : Nat) (p : Position)
    (arguments : List Argument) : Eval Value := fun c =>
  if maxCallDepth ≤ c.depth then .failed ⟨p, .recursionLimit maxCallDepth⟩ c
  else
    match d.bindArguments arguments with
    | .error cause => .failed ⟨p, cause⟩ c
    | .ok bindings =>
      let rendering : Eval String := do
        update fun c => bindings.foldl (fun c b => c.bind b.1 b.2) c
        enter d.body address
      let call := andThen (inScope env scope rendering) fun d => { d with depth := c.depth }
      Eval.bind call (fun text => Eval.pure (.string text)) { c with depth := c.depth + 1 }

/-- Calls a function with evaluated arguments. -/
def call (f : Function) (p : Position) (arguments : List Argument) : Eval Value :=
  match f with
  | .defined d address scope => callMacro env enter d address scope p arguments
  | f => inChild env (perform env enter p (action env p arguments f))

end Eval

end TemplatedSql
