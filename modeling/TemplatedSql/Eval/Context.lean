import TemplatedSql.Scope
import TemplatedSql.Value.Action

/-!
# The state of an evaluation

A context holds the scopes and what else an evaluation changes. An environment holds what it only
reads: the globals, the overlay seen before them, the library of templates that can be imported, and
the functions of the host. An evaluation ends with a value or an error, and with a context in either
case; the third outcome, running out of the allowance for nested bodies, is one that the entry points
never meet.
-/

namespace TemplatedSql

/-- A parsed template with its name. -/
structure Template where
  name : String
  body : Body

/-- What an evaluation changes. -/
structure Context where
  /-- The scopes. -/
  arena : Arena
  /-- The scope that is evaluated in. -/
  current : Nat
  /-- The root scope of every imported template, by the template's name. -/
  imported : Table Nat
  /-- How many macros are being rendered inside one another. -/
  depth : Nat
  /-- How many attributes have been read. -/
  accesses : Nat
  /-- How many texts have been given to render, each counted once. -/
  given : Nat
  /-- What has been logged, with the place of each call. -/
  logs : Array (Position × String)

namespace Context

/-- The context before anything is evaluated: one empty scope. -/
def initial : Context where
  arena := [some ⟨[], none⟩]
  current := 0
  imported := []
  depth := 0
  accesses := 0
  given := 0
  logs := #[]

/-- The context after the block of a scope has ended. -/
def release (c : Context) (scope : Nat) : Context :=
  { c with arena := c.arena.release scope }

/-- The context with a variable bound in the current scope. -/
def bind (c : Context) (name : String) (v : Value) : Context :=
  { c with arena := c.arena.bind c.current name v }

end Context

/-- What an evaluation reads. -/
structure Environment where
  /-- The names that every scope sees last. -/
  globals : Table Value := []
  /-- The names seen before the globals. -/
  overlay : Table Value := []
  /-- The templates that can be imported, by the name they are looked up by: a finite table that does not
  change. A resolver of the host may be any program; one whose answers change, or that finds a template
  under each of infinitely many names, is no such table. -/
  library : Table Template := []
  /-- The functions of the host, by key. -/
  hosts : List HostFunction := []
  /-- What becomes of a scope when its block has ended. -/
  discard : Context → Nat → Context := Context.release

/-- The built-in functions under their names. -/
def Environment.builtins : Table Value :=
  Builtin.all.map fun b => (b.name, .function (.builtin b))

/-- How an evaluation ends. -/
inductive Outcome (α : Type)
  | done (value : α) (context : Context)
  | failed (error : TemplateError) (context : Context)
  | exhausted

/-- An evaluation that gives an `α`. -/
def Eval (α : Type) := Context → Outcome α

namespace Eval

variable {α β : Type}

/-- Gives a value and changes nothing. -/
@[inline] def pure (v : α) : Eval α := fun c => .done v c

/-- Goes on with the value of an evaluation; an error ends both. -/
@[inline] def bind (m : Eval α) (f : α → Eval β) : Eval β := fun c =>
  match m c with
  | .done v c => f v c
  | .failed e c => .failed e c
  | .exhausted => .exhausted

instance : Monad Eval where
  pure := Eval.pure
  bind := Eval.bind

/-- Fails at a place. -/
def fail (p : Position) (cause : Cause) : Eval α := fun c => .failed ⟨p, cause⟩ c

/-- The result of a computation that fails at a place. -/
def located (p : Position) : Except Cause α → Eval α
  | .ok v => Eval.pure v
  | .error cause => fail p cause

/-- The context. -/
def context : Eval Context := fun c => .done c c

/-- Changes the context. -/
def update (f : Context → Context) : Eval Unit := fun c => .done () (f c)

/-- Evaluates and then changes the context, also after an error. -/
@[inline] def andThen (m : Eval α) (f : Context → Context) : Eval α := fun c =>
  match m c with
  | .done v c => .done v (f c)
  | .failed e c => .failed e (f c)
  | .exhausted => .exhausted

/-- Evaluates and replaces an error by another. -/
@[inline] def mapError (m : Eval α) (f : TemplateError → TemplateError) : Eval α := fun c =>
  match m c with
  | .failed e c => .failed (f e) c
  | r => r

/-- Evaluates for each item in turn, joining the texts to `text`. -/
def joinAll (f : α → Eval String) (text : String) : List α → Eval String
  | [] => Eval.pure text
  | a :: as => fun c =>
    match f a c with
    | .done s c => joinAll f (text ++ s) as c
    | .failed e c => .failed e c
    | .exhausted => .exhausted

end Eval

end TemplatedSql
