import TemplatedSql.Eval.Render
import TemplatedSql.Tree.Parser.Body

/-!
# Sessions

What a program does with a context: render templates one after the other, read, bind and look up
variables, call functions it got as values, and do all this in a scope that ends afterwards. A context
can be used again after an error.
-/

namespace TemplatedSql

/-- How many bodies can ever be open at once: every library template once, as many macros as may be
nested, and the body that is rendered. -/
def Environment.allowance (env : Environment) : Nat :=
  env.library.length + maxCallDepth + 1

/-- The text of a body. -/
def Environment.enter (env : Environment) : Body → Address → Eval String :=
  renderBody env env.allowance

namespace Session

variable {α : Type} (env : Environment)

/-- Renders the body with the given number in the current scope. Its macros are the same ones whenever it is
rendered. -/
def renderAgain (serial : Nat) (body : Body) : Eval String :=
  env.enter body ⟨.given serial, []⟩

/-- Renders a body that has not been rendered before. It gets the next number. -/
def render (body : Body) : Eval String := fun c =>
  renderAgain env c.given body { c with given := c.given + 1 }

/-- The value of a variable, which is imported if need be. -/
def get (name : String) (p : Position) : Eval Value :=
  Eval.readVariable env env.enter name p

/-- Binds a variable in the current scope. -/
def set (name : String) (v : Value) : Eval Unit :=
  Eval.update fun c => c.bind name v

/-- Calls a function. -/
def call (f : Function) (p : Position) (arguments : List Argument) : Eval Value :=
  Eval.call env env.enter f p arguments

/-- Does something in a scope inside the current one. -/
def inChild (m : Eval α) : Eval α :=
  Eval.inChild env m

end Session

/-- Reports that what stands at the start of a source has no value: its first expression or node. -/
def Node.undefinedError : Node → TemplateError
  | .output _ expr => TemplatedSql.undefinedError expr.position expr.source
  | node => TemplatedSql.undefinedError node.position node.source

end TemplatedSql
