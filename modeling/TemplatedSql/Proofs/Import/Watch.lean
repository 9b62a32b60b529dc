import TemplatedSql.Proofs.Session

/-! # Evaluations that are watched

A watched evaluation tells which names it reads and which templates it imports, in the order in which it does so and
with the context at each of these moments. Expressions, bodies and the operations of a session are watched by the
same recursion that evaluates them; watching an evaluation does not change it. -/

namespace TemplatedSql

/-- What an evaluation can be seen to do. -/
inductive Moment
  /-- A name is read. -/
  | reads (name : String) (c : Context)
  /-- A template is imported because a name was read: its body is about to be rendered. -/
  | opens (name : String) (t : Template) (c : Context)
  /-- The rendering of a template's body has ended, with a text or an error. -/
  | closes (t : Template) (root : Nat) (c : Context)

namespace Moment

/-- The context at a moment. -/
def context : Moment → Context
  | .reads _ c | .opens _ _ c | .closes _ _ c => c

/-- The context in which the evaluation goes on. -/
def next : Moment → Context
  | .reads _ c | .closes _ _ c => c
  | .opens _ t c => c.importing t.name

/-- The name of the template whose body is about to be rendered. -/
def template? : Moment → Option String
  | .opens _ t _ => some t.name
  | _ => none

end Moment

/-- An evaluation together with the moments it comes to. -/
structure Watched (α : Type) where
  run : Eval α
  moments : Context → List Moment

namespace Watched

section
variable {α β : Type}

/-- An evaluation that reads no name and imports no template. -/
def quiet (m : Eval α) : Watched α where
  run := m
  moments _ := []

/-- Goes on with the value of an evaluation. -/
def bind (m : Watched α) (f : α → Watched β) : Watched β where
  run := Eval.bind m.run fun v => (f v).run
  moments c := m.moments c ++
    match m.run c with
    | .done v d => (f v).moments d
    | _ => []

instance : Monad Watched where
  pure v := quiet (Eval.pure v)
  bind := bind

@[simp] theorem run_quiet (m : Eval α) : (quiet m).run = m := rfl

@[simp] theorem run_bind (m : Watched α) (f : α → Watched β) : (m >>= f).run = m.run >>= fun v => (f v).run := rfl

/-- Evaluates for each item in turn, joining the texts to `text`. -/
def joinAll (f : α → Watched String) (text : String) : List α → Watched String
  | [] => Pure.pure text
  | a :: as => f a >>= fun s => joinAll f (text ++ s) as

theorem run_joinAll (f : α → Watched String) (text : String) (as : List α) :
    (joinAll f text as).run = Eval.joinAll (fun a => (f a).run) text as := by
  induction as generalizing text with
  | nil => rfl
  | cons a as ih =>
    rw [Eval.joinAll_cons, joinAll, run_bind]
    exact congrArg _ (funext fun s => ih (text ++ s))

end

section
variable {α : Type} (env : Environment) (enter : Body → Address → Watched String)

/-- The evaluations of bodies that are watched. -/
def runs (body : Body) (address : Address) : Eval String :=
  (enter body address).run

/-- Evaluates in a new scope. -/
def inScope (parent : Nat) (m : Watched α) : Watched α where
  run := Eval.inScope env parent m.run
  moments c := m.moments (c.opening (some parent))

/-- Evaluates in a new scope inside the current one. -/
def inChild (m : Watched α) : Watched α where
  run := Eval.inChild env m.run
  moments c := (inScope env c.current m).moments c

/-- The moments of the import of a template whose root is asked for because of a name. -/
def importMoments (name : String) (t : Template) (c : Context) : List Moment :=
  match c.imported.get? t.name with
  | some _ => []
  | none =>
    let rendering := enter t.body ⟨.library t.name, []⟩
    let inside := c.importing t.name
    .opens name t c :: rendering.moments inside ++
      (rendering.run inside).context?.toList.map (.closes t c.arena.length)

/-- The value of a name. -/
def readVariable (name : String) (p : Position) : Watched Value where
  run := Eval.readVariable env (runs enter) name p
  moments c := .reads name c ::
    match env.lookup c name, env.library.get? name with
    | none, some t => importMoments enter name t c
    | _, _ => []

variable {env enter} in
theorem moments_readVariable_of_known {name : String} {c : Context} (p : Position)
    (h : ∀ t, env.lookup c name = none → env.library.get? name = some t → c.imported.get? t.name ≠ none) :
    (readVariable env enter name p).moments c = [.reads name c] := by
  dsimp only [readVariable]
  cases hlookup : env.lookup c name with
  | some v => rfl
  | none =>
    cases ht : env.library.get? name with
    | none => rfl
    | some t =>
      obtain ⟨scope, hi⟩ := Option.ne_none_iff_exists'.mp (h t hlookup ht)
      simp only [importMoments, hi]

variable {env enter} in
theorem moments_readVariable_of_import {name : String} {t : Template} {c d : Context} (p : Position)
    (hlookup : env.lookup c name = none) (ht : env.library.get? name = some t) (hi : c.imported.get? t.name = none)
    (hd : (runs enter t.body ⟨.library t.name, []⟩ (c.importing t.name)).context? = some d) :
    (readVariable env enter name p).moments c = .reads name c :: .opens name t c ::
      ((enter t.body ⟨.library t.name, []⟩).moments (c.importing t.name) ++ [.closes t c.arena.length d]) := by
  change ((enter t.body ⟨.library t.name, []⟩).run (c.importing t.name)).context? = some d at hd
  simp only [readVariable, hlookup, ht, importMoments, hi, hd]
  rfl

/-- Performs what a native function does, called at a place. -/
def perform (p : Position) : Action → Watched Value
  | .finish v => Pure.pure v
  | .fail cause => quiet (Eval.fail p cause)
  | .log message next => do
    quiet (Eval.update fun c => { c with logs := c.logs.push (p, message) })
    perform p next
  | .read name next => do
    let v ← readVariable env enter name p
    perform p (next v)
  | .bind name v next => do
    quiet (Eval.update fun c => c.bind name v)
    perform p next

theorem run_perform (p : Position) (action : Action) :
    (perform env enter p action).run = Eval.perform env (runs enter) p action := by
  induction action with
  | finish v => rfl
  | fail cause => rfl
  | log message next ih =>
    rw [perform, Eval.perform, run_bind, ih]
    rfl
  | read name next ih =>
    rw [perform, Eval.perform, run_bind]
    exact congrArg _ (funext ih)
  | bind name v next ih =>
    rw [perform, Eval.perform, run_bind, ih]
    rfl

/-- The text of a body with variables bound. -/
def withBindings (bindings : Table Value) (body : Body) (address : Address) : Watched String := do
  quiet (Eval.update fun c => bindings.foldl (fun c b => c.bind b.1 b.2) c)
  enter body address

/-- Renders the body of a macro with its parameters bound. -/
def callMacro (d : MacroDef) (address : Address) (scope : Nat) (p : Position) (arguments : List Argument) :
    Watched Value where
  run := Eval.callMacro env (runs enter) d address scope p arguments
  moments c :=
    if maxCallDepth ≤ c.depth then []
    else
      match d.bindArguments arguments with
      | .error _ => []
      | .ok bindings =>
        (inScope env scope (withBindings enter bindings d.body address)).moments { c with depth := c.depth + 1 }

/-- Calls a function with evaluated arguments. -/
def call (f : Function) (p : Position) (arguments : List Argument) : Watched Value :=
  match f with
  | .defined d address scope => callMacro env enter d address scope p arguments
  | f => inChild env (perform env enter p (Eval.action env p arguments f))

theorem run_call (f : Function) (p : Position) (arguments : List Argument) :
    (call env enter f p arguments).run = Eval.call env (runs enter) f p arguments := by
  cases f with
  | defined d address scope => rfl
  | _ =>
    rw [call, Eval.call, ← run_perform]
    · rfl
    · simp
    · simp

end

end Watched

/-! ### Expressions and bodies -/

section
open Watched
variable (env : Environment) (enter : Body → Address → Watched String)

mutual

/-- The value of an expression. -/
def Expr.watch : Expr → Watched Value
  | .literal _ v => pure (.ofLiteral v)
  | .list _ items => do pure (.list (← Expr.watchAll items))
  | .name p name => readVariable env enter name p
  | .member _ target name => do
    let v ← target.watch
    let c ← quiet Eval.context
    quiet (Eval.update fun c => { c with accesses := c.accesses + 1 })
    pure (v.member c.accesses name)
  | .index p target index => do
    let v ← target.watch
    let i ← index.watch
    quiet (Eval.located p (v.index i))
  | .binary p op left right => do
    let a ← left.watch
    match op with
    | .and => if a.truthy then right.watch else pure a
    | .or => if a.truthy then pure a else right.watch
    | op => do
      let b ← right.watch
      quiet (Eval.located p (Value.binary op a b))
  | .unary p op operand => do
    let v ← operand.watch
    match op with
    | .not => pure (.boolean !v.truthy)
    | .neg => quiet (Eval.located p v.negate)
  | .call p callee arguments => do
    let arguments ← CallArgument.watchAll arguments
    match ← callee.watch with
    | .function f => call env enter f p arguments
    | .undefined => quiet (Eval.fail p (.undefinedFunction callee.source))
    | v => quiet (Eval.fail p (.notCallable callee.source v.kind))

/-- The values of a list of expressions. -/
def Expr.watchAll : List Expr → Watched (List Value)
  | [] => pure []
  | e :: es => do
    let v ← e.watch
    let vs ← Expr.watchAll es
    pure (v :: vs)

/-- The value of an argument. -/
def CallArgument.watch : CallArgument → Watched Argument
  | ⟨name, e⟩ => do
    let v ← e.watch
    pure ⟨name, v⟩

/-- The values of a list of arguments. -/
def CallArgument.watchAll : List CallArgument → Watched (List Argument)
  | [] => pure []
  | a :: as => do
    let v ← a.watch
    let vs ← CallArgument.watchAll as
    pure (v :: vs)

end

mutual

/-- The text of a node, which is `step` tags into its body, at `address`. -/
def Node.watch (address : Address) (step : Nat) : Node → Watched String
  | .text _ text => pure text
  | .output _ expr => do
    let v ← expr.watch env enter
    pure v.text
  | .branch _ condition body rest => do
    let address := { address with path := step :: address.path }
    let v ← condition.watch env enter
    if v.truthy then body.watch { address with path := 0 :: address.path }
    else rest.watch address 1
  | .loop p targets iterable body => do
    let address := { address with path := step :: address.path }
    let v ← iterable.watch env enter
    match loopRounds p targets iterable v with
    | .error e => quiet fun c => .failed e c
    | .ok rounds =>
      inChild env
        (joinAll
          (fun (bindings, round) => do
            quiet (Eval.update fun c => bindings.foldl (fun c b => c.bind b.1 b.2) c)
            quiet (Eval.update fun c => c.bind "loop" (loopInfo round rounds.length))
            body.watch address)
          "" rounds.zipIdx)
  | .macroDef d => do
    let address := { address with path := step :: address.path }
    quiet (Eval.update fun c => c.bind d.name (.function (.defined d address c.current)))
    pure ""
  | .assign _ name value => do
    let v ← value.watch env enter
    quiet (Eval.update fun c => c.bind name v)
    pure ""

/-- The text of what follows a condition that does not hold. -/
def Alternative.watch (address : Address) (arm : Nat) : Alternative → Watched String
  | .nothing => pure ""
  | .otherwise body => body.watch { address with path := arm :: address.path }
  | .elseIf condition body rest => do
    let v ← condition.watch env enter
    if v.truthy then body.watch { address with path := arm :: address.path }
    else rest.watch address (arm + 1)

/-- The text of a body. -/
def Body.watch (address : Address) : Body → Watched String
  | ⟨_, nodes⟩ => Node.watchAll address 0 "" nodes

/-- The text of the nodes of a body from the `step`-th tag on, after `text`. -/
def Node.watchAll (address : Address) (step : Nat) (text : String) : List Node → Watched String
  | [] => pure text
  | .text _ more :: nodes => Node.watchAll address step (text ++ more) nodes
  | node :: nodes => do
    let more ← node.watch address step
    Node.watchAll address (step + 1) (text ++ more) nodes

end

/-! ### Watching changes nothing -/

mutual

theorem Expr.run_watch : ∀ e : Expr, (e.watch env enter).run = e.eval env (runs enter)
  | .literal .. => rfl
  | .list _ items => by rw [Expr.watch, Expr.eval, run_bind, Expr.run_watchAll items]; rfl
  | .name .. => rfl
  | .member _ target _ => by rw [Expr.watch, Expr.eval, run_bind, target.run_watch]; rfl
  | .index _ target index => by
    simp only [Expr.watch, Expr.eval, run_bind, target.run_watch, index.run_watch]
    rfl
  | .binary _ op left right => by
    simp only [Expr.watch, Expr.eval, run_bind, left.run_watch]
    refine congrArg _ (funext fun a => ?_)
    cases op with
    | and =>
      dsimp only
      split
      · exact right.run_watch
      · rfl
    | or =>
      dsimp only
      split
      · rfl
      · exact right.run_watch
    | _ =>
      simp only [run_bind, right.run_watch]
      rfl
  | .unary _ op operand => by
    rw [Expr.watch, Expr.eval, run_bind, operand.run_watch]
    refine congrArg _ (funext fun v => ?_)
    cases op <;> rfl
  | .call p callee arguments => by
    simp only [Expr.watch, Expr.eval, run_bind, CallArgument.run_watchAll arguments, callee.run_watch]
    refine congrArg _ (funext fun values => congrArg _ (funext fun v => ?_))
    cases v with
    | function f => exact run_call env enter f p values
    | _ => rfl

theorem Expr.run_watchAll : ∀ es : List Expr, (Expr.watchAll env enter es).run = Expr.evalAll env (runs enter) es
  | [] => rfl
  | e :: es => by
    simp only [Expr.watchAll, Expr.evalAll, run_bind, e.run_watch, Expr.run_watchAll es]
    rfl

theorem CallArgument.run_watch : ∀ a : CallArgument, (a.watch env enter).run = a.eval env (runs enter)
  | ⟨_, e⟩ => by rw [CallArgument.watch, CallArgument.eval, run_bind, e.run_watch]; rfl

theorem CallArgument.run_watchAll :
    ∀ as : List CallArgument, (CallArgument.watchAll env enter as).run = CallArgument.evalAll env (runs enter) as
  | [] => rfl
  | a :: as => by
    simp only [CallArgument.watchAll, CallArgument.evalAll, run_bind, a.run_watch, CallArgument.run_watchAll as]
    rfl

end

mutual

theorem Node.run_watch (address : Address) (step : Nat) :
    ∀ node : Node, (node.watch env enter address step).run = node.render env (runs enter) address step
  | .text .. => rfl
  | .output _ expr => by rw [Node.watch, Node.render, run_bind, expr.run_watch]; rfl
  | .branch _ condition body rest => by
    rw [Node.watch, Node.render, run_bind, condition.run_watch]
    refine congrArg _ (funext fun v => ?_)
    split
    · exact body.run_watch _
    · exact rest.run_watch _ _
  | .loop p targets iterable body => by
    rw [Node.watch, Node.render, run_bind, iterable.run_watch]
    refine congrArg _ (funext fun v => ?_)
    cases loopRounds p targets iterable v with
    | error e => rfl
    | ok rounds =>
      refine congrArg (Eval.inChild env) ((run_joinAll _ _ _).trans ?_)
      simp only [run_bind, run_quiet, body.run_watch]
  | .macroDef d => by rw [Node.watch, Node.render]; rfl
  | .assign _ name value => by rw [Node.watch, Node.render, run_bind, value.run_watch]; rfl

theorem Alternative.run_watch (address : Address) (arm : Nat) :
    ∀ rest : Alternative, (rest.watch env enter address arm).run = rest.render env (runs enter) address arm
  | .nothing => rfl
  | .otherwise body => by rw [Alternative.watch, Alternative.render, body.run_watch]
  | .elseIf condition body rest => by
    rw [Alternative.watch, Alternative.render, run_bind, condition.run_watch]
    refine congrArg _ (funext fun v => ?_)
    split
    · exact body.run_watch _
    · exact rest.run_watch _ _

theorem Body.run_watch (address : Address) :
    ∀ body : Body, (body.watch env enter address).run = body.render env (runs enter) address
  | ⟨_, nodes⟩ => by rw [Body.watch, Body.render, Node.run_watchAll]

theorem Node.run_watchAll (address : Address) (step : Nat) (text : String) : ∀ nodes : List Node,
    (Node.watchAll env enter address step text nodes).run = Node.renderAll env (runs enter) address step text nodes
  | [] => rfl
  | node :: nodes => by
    have hhead := node.run_watch address step
    have htail := fun step text => Node.run_watchAll address step text nodes
    cases node with
    | text p more =>
      rw [Node.watchAll, Node.renderAll]
      exact htail step (text ++ more)
    | _ =>
      rw [Node.watchAll, Node.renderAll, run_bind, hhead]
      · exact congrArg _ (funext fun more => htail (step + 1) (text ++ more))
      · simp
      · simp

end

end

/-- The text of a body, while at most `allowance` bodies are open at once. -/
def watchBody (env : Environment) : Nat → Body → Address → Watched String
  | 0, _, _ => .quiet fun _ => .exhausted
  | allowance + 1, body, address => body.watch env (watchBody env allowance) address

theorem runs_watchBody (env : Environment) (n : Nat) : Watched.runs (watchBody env n) = renderBody env n := by
  induction n with
  | zero => rfl
  | succ n ih =>
    funext body address
    show (body.watch env (watchBody env n) address).run = body.render env (renderBody env n) address
    rw [body.run_watch, ih]

/-! ### Sessions -/

/-- The text of a body. -/
def Environment.watch (env : Environment) : Body → Address → Watched String :=
  watchBody env env.allowance

theorem Environment.runs_watch (env : Environment) : Watched.runs env.watch = env.enter :=
  runs_watchBody env env.allowance

namespace Session

/-- Waits for the end of an evaluation. -/
def awaitWatched {α : Type} (m : Watched α) : Watched Unit where
  run := await m.run
  moments := m.moments

/-- Renders a body that has been given before. -/
def watchRenderAgain (env : Environment) (serial : Nat) (body : Body) : Watched String where
  run := renderAgain env serial body
  moments := (env.watch body ⟨.given serial, []⟩).moments

/-- Renders a new body in the current scope. -/
def watchRender (env : Environment) (body : Body) : Watched String where
  run := render env body
  moments c := (watchRenderAgain env c.given body).moments { c with given := c.given + 1 }

mutual

/-- What an operation does to a context. -/
def Op.watch (env : Environment) : Op → Watched Unit
  | .render body => awaitWatched (watchRender env body)
  | .renderAgain serial body => awaitWatched (watchRenderAgain env serial body)
  | .get name p => awaitWatched (Watched.readVariable env env.watch name p)
  | .lookup name => .quiet fun c => await (fun c => .done (env.lookup c name) c) c
  | .set name v => .quiet (Session.set name v)
  | .call f p arguments => awaitWatched (Watched.call env env.watch f p arguments)
  | .scoped ops error => Watched.inChild env (do Op.watchAll env ops; .quiet (finish error))

/-- What operations do one after the other. -/
def Op.watchAll (env : Environment) : List Op → Watched Unit
  | [] => pure ()
  | op :: ops => do awaitWatched (op.watch env); Op.watchAll env ops

end

mutual

theorem Op.run_watch (env : Environment) : ∀ op : Op, (op.watch env).run = op.run env
  | .render body => by rw [Op.watch, Op.run]; rfl
  | .renderAgain serial body => by rw [Op.watch, Op.run]; rfl
  | .get name p => by
    rw [Op.watch, Op.run, Session.get, ← env.runs_watch]
    rfl
  | .lookup name => by rw [Op.watch, Op.run]; rfl
  | .set name v => by rw [Op.watch, Op.run]; rfl
  | .call f p arguments => by
    rw [Op.watch, Op.run, Session.call, ← env.runs_watch, ← Watched.run_call]
    rfl
  | .scoped ops error => by
    rw [Op.watch, Op.run, ← Op.run_watchAll env ops]
    rfl

theorem Op.run_watchAll (env : Environment) : ∀ ops : List Op, (Op.watchAll env ops).run = Op.runAll env ops
  | [] => by rw [Op.watchAll, Op.runAll]; rfl
  | op :: ops => by
    rw [Op.watchAll, Op.runAll, ← Op.run_watch env op, ← Op.run_watchAll env ops]
    rfl

end

end Session

end TemplatedSql
