import TemplatedSql.Eval.Call
import TemplatedSql.Tree.Printer
import TemplatedSql.Value.Operator

/-!
# Evaluating expressions and rendering bodies

Expressions give values, nodes give text. The recursion follows the tree of one body; where an import
or a macro call needs the text of another body, it asks `enter`. `renderBody` closes the circle with an
allowance for how many bodies may be open at once. A body is only entered for a template that has not
been imported yet, or for a macro below the limit on nested calls, so an allowance of one more than the
library and that limit together is never used up.
-/

namespace TemplatedSql

open Eval

section

variable (env : Environment) (enter : Body → Address → Eval String)

mutual

/-- The value of an expression. The operands of `and` and `or` are evaluated as far as needed, and the
arguments of a call before the callee. -/
def Expr.eval : Expr → Eval Value
  | .literal _ v => Eval.pure (.ofLiteral v)
  | .list _ items => do Eval.pure (.list (← Expr.evalAll items))
  | .name p name => readVariable env enter name p
  | .member _ target name => do
    let v ← target.eval
    let c ← context
    update fun c => { c with accesses := c.accesses + 1 }
    Eval.pure (v.member c.accesses name)
  | .index p target index => do
    let v ← target.eval
    let i ← index.eval
    located p (v.index i)
  | .binary p op left right => do
    let a ← left.eval
    match op with
    | .and => if a.truthy then right.eval else Eval.pure a
    | .or => if a.truthy then Eval.pure a else right.eval
    | op => do
      let b ← right.eval
      located p (Value.binary op a b)
  | .unary p op operand => do
    let v ← operand.eval
    match op with
    | .not => Eval.pure (.boolean !v.truthy)
    | .neg => located p v.negate
  | .call p callee arguments => do
    let arguments ← CallArgument.evalAll arguments
    match ← callee.eval with
    | .function f => call env enter f p arguments
    | .undefined => fail p (.undefinedFunction callee.source)
    | v => fail p (.notCallable callee.source v.kind)

/-- The values of a list of expressions. -/
def Expr.evalAll : List Expr → Eval (List Value)
  | [] => Eval.pure []
  | e :: es => do
    let v ← e.eval
    let vs ← Expr.evalAll es
    Eval.pure (v :: vs)

/-- The value of an argument. -/
def CallArgument.eval : CallArgument → Eval Argument
  | ⟨name, e⟩ => do
    let v ← e.eval
    Eval.pure ⟨name, v⟩

/-- The values of a list of arguments. -/
def CallArgument.evalAll : List CallArgument → Eval (List Argument)
  | [] => Eval.pure []
  | a :: as => do
    let v ← a.eval
    let vs ← CallArgument.evalAll as
    Eval.pure (v :: vs)

end

/-- The error of an expression that needs a value and has none. -/
def undefinedError (p : Position) (source : String) : TemplateError :=
  ⟨p, .runtime s!"`{source}` is undefined"⟩

/-- The values that each round of a loop binds: the item, the parts of the item, the key, or the key and
the value. -/
def loopRounds (p : Position) (targets : Targets) (iterable : Expr) :
    Value → Except TemplateError (List (Table Value))
  | .list items =>
    match targets with
    | .one name => .ok (items.map fun v => [(name, v)])
    | .two first second =>
      items.mapM fun
        | .list [a, b] => .ok [(first, a), (second, b)]
        | v => .error ⟨p, .typeMismatch s!"cannot unpack {v.kind} into 2 loop variables"⟩
  | .mapping entries =>
    match targets with
    | .one name => .ok (entries.map fun e => [(name, .string e.1)])
    | .two first second => .ok (entries.map fun e => [(first, .string e.1), (second, e.2)])
  | .undefined => .error (undefinedError iterable.position iterable.source)
  | v => .error ⟨p, .typeMismatch s!"cannot iterate over {v.kind}"⟩

/-- What a loop tells its body about the round: its number from one and from zero, whether it is the
first or the last, and how many rounds there are. -/
def loopInfo (round rounds : Nat) : Value :=
  .mapping
    [ ("first", .boolean (round == 0)), ("index", .number (.ofNat (round + 1))),
      ("index0", .number (.ofNat round)), ("last", .boolean (round + 1 == rounds)),
      ("length", .number (.ofNat rounds)) ]

mutual

/-- The text of a node, which is `step` tags into its body, at `address`. -/
def Node.render (address : Address) (step : Nat) : Node → Eval String
  | .text _ text => Eval.pure text
  | .output _ expr => do
    let v ← expr.eval env enter
    Eval.pure v.text
  | .branch _ condition body rest => do
    let address := { address with path := step :: address.path }
    let v ← condition.eval env enter
    if v.truthy then body.render { address with path := 0 :: address.path }
    else rest.render address 1
  | .loop p targets iterable body => do
    let address := { address with path := step :: address.path }
    let v ← iterable.eval env enter
    match loopRounds p targets iterable v with
    | .error e => fun c => .failed e c
    | .ok rounds =>
      inChild env
        (joinAll
          (fun (bindings, round) => do
            update fun c => bindings.foldl (fun c b => c.bind b.1 b.2) c
            update fun c => c.bind "loop" (loopInfo round rounds.length)
            body.render address)
          "" rounds.zipIdx)
  | .macroDef d => do
    let address := { address with path := step :: address.path }
    update fun c => c.bind d.name (.function (.defined d address c.current))
    Eval.pure ""
  | .assign _ name value => do
    let v ← value.eval env enter
    update fun c => c.bind name v
    Eval.pure ""

/-- The text of what follows a condition that does not hold, the `arm`-th of its statement. -/
def Alternative.render (address : Address) (arm : Nat) : Alternative → Eval String
  | .nothing => Eval.pure ""
  | .otherwise body => body.render { address with path := arm :: address.path }
  | .elseIf condition body rest => do
    let v ← condition.eval env enter
    if v.truthy then body.render { address with path := arm :: address.path }
    else rest.render address (arm + 1)

/-- The text of a body. -/
def Body.render (address : Address) : Body → Eval String
  | ⟨_, nodes⟩ => Node.renderAll address 0 "" nodes

/-- The text of the nodes of a body from the `step`-th tag on, after `text`. -/
def Node.renderAll (address : Address) (step : Nat) (text : String) : List Node → Eval String
  | [] => Eval.pure text
  | .text _ more :: nodes => Node.renderAll address step (text ++ more) nodes
  | node :: nodes => do
    let more ← node.render address step
    Node.renderAll address (step + 1) (text ++ more) nodes

end

end

/-- The text of a body, while at most `allowance` bodies are open at once. -/
def renderBody (env : Environment) : Nat → Body → Address → Eval String
  | 0, _, _ => fun _ => .exhausted
  | allowance + 1, body, address => body.render env (renderBody env allowance) address

end TemplatedSql
