import TemplatedSql.Proofs.Evaluation

/-! # The allowance for nested bodies changes no result

An evaluation asks `enter` for the text of a body. Where another `enter` answers the same whenever the first one
answers at all, the evaluation ends the same whenever it ended before. So a rendering has one result for every
allowance that is not used up, and the `enter` of an environment satisfies the equation of a rendering that may
open as many bodies as it likes. Nor does it matter in what order the templates stand in the library, or which others
stand behind one of the same name. -/

namespace TemplatedSql

/-- The second end is the first one, unless that ran out of its allowance. -/
def Outcome.Refines {α : Type} (o o' : Outcome α) : Prop :=
  o = .exhausted ∨ o = o'

namespace Outcome.Refines
variable {α : Type} {o o' : Outcome α}

theorem refl (o : Outcome α) : o.Refines o :=
  Or.inr rfl

theorem eq_of_context? {c : Context} (h : o.Refines o') (ho : o.context? = some c) : o = o' := by
  rcases h with rfl | h
  · cases ho
  · exact h

end Outcome.Refines

/-- Two environments differ at most in what stands behind the templates that their libraries find. -/
structure Environment.Agrees (env env' : Environment) : Prop where
  globals : env'.globals = env.globals
  overlay : env'.overlay = env.overlay
  library : ∀ name, env'.library.get? name = env.library.get? name
  hosts : env'.hosts = env.hosts
  discard : env'.discard = env.discard

namespace Environment.Agrees
variable {env env' : Environment}

theorem refl (env : Environment) : env.Agrees env :=
  ⟨rfl, rfl, fun _ => rfl, rfl, rfl⟩

theorem lookup (h : env.Agrees env') (c : Context) (name : String) : env'.lookup c name = env.lookup c name := by
  rw [Environment.lookup, Environment.lookup, h.globals, h.overlay]

theorem action (h : env.Agrees env') (p : Position) (arguments : List Argument) (f : Function) :
    Eval.action env' p arguments f = Eval.action env p arguments f := by
  cases f with
  | host key name => rw [Eval.action, Eval.action, h.hosts]
  | _ => rfl

end Environment.Agrees

namespace Eval
variable {α β : Type} {m m' : Eval α} {env env' : Environment}

/-- From every context the second evaluation ends as the first one, unless that runs out of its allowance. -/
def Refines (m m' : Eval α) : Prop :=
  ∀ c, (m c).Refines (m' c)

namespace Refines

theorem refl (m : Eval α) : m.Refines m :=
  fun c => .refl (m c)

theorem bind {f f' : α → Eval β} (hm : m.Refines m') (hf : ∀ v, (f v).Refines (f' v)) :
    (m >>= f).Refines (m' >>= f') := by
  intro c
  show (Eval.bind m f c).Refines (Eval.bind m' f' c)
  unfold Eval.bind
  rcases hm c with h | h
  · exact Or.inl (by rw [h])
  · rw [← h]
    cases m c with
    | done v d => exact hf v d
    | failed e d => exact .refl _
    | exhausted => exact .refl _

theorem andThen (hm : m.Refines m') (f : Context → Context) : (Eval.andThen m f).Refines (Eval.andThen m' f) := by
  intro c
  unfold Eval.andThen
  rcases hm c with h | h
  · exact Or.inl (by rw [h])
  · rw [← h]
    exact .refl _

theorem mapError (hm : m.Refines m') (f : TemplateError → TemplateError) :
    (Eval.mapError m f).Refines (Eval.mapError m' f) := by
  intro c
  unfold Eval.mapError
  rcases hm c with h | h
  · exact Or.inl (by rw [h])
  · rw [← h]
    exact .refl _

theorem joinAll {f f' : α → Eval String} (hf : ∀ a, (f a).Refines (f' a)) (text : String) (as : List α) :
    (Eval.joinAll f text as).Refines (Eval.joinAll f' text as) := by
  induction as generalizing text with
  | nil => exact refl _
  | cons a as ih =>
    rw [joinAll_cons, joinAll_cons]
    exact bind (hf a) fun s => ih (text ++ s)

theorem inScope (ha : env.Agrees env') (hm : m.Refines m') (parent : Nat) :
    (Eval.inScope env parent m).Refines (Eval.inScope env' parent m') := by
  intro c
  unfold Eval.inScope
  rw [ha.discard]
  exact hm.andThen _ { c with arena := c.arena.push (some parent), current := c.arena.length }

theorem inChild (ha : env.Agrees env') (hm : m.Refines m') : (Eval.inChild env m).Refines (Eval.inChild env' m') :=
  fun c => inScope ha hm c.current c

section
variable {enter enter' : Body → Address → Eval String}
  (henter : ∀ body address, (enter body address).Refines (enter' body address))
include henter

theorem importTemplate (t : Template) (p : Position) :
    (Eval.importTemplate enter t p).Refines (Eval.importTemplate enter' t p) := by
  intro c
  unfold Eval.importTemplate
  cases c.imported.get? t.name with
  | some i => exact .refl _
  | none => exact bind (((henter _ _).andThen _).mapError _) (fun _ => refl _) _

variable (ha : env.Agrees env')
include ha

theorem readVariable (name : String) (p : Position) :
    (Eval.readVariable env enter name p).Refines (Eval.readVariable env' enter' name p) := by
  intro c
  unfold Eval.readVariable
  rw [ha.lookup, ha.library]
  cases env.lookup c name with
  | some v => exact .refl _
  | none =>
    cases env.library.get? name with
    | none => exact .refl _
    | some t => exact bind (importTemplate henter t p) (fun _ => refl _) c

theorem perform (p : Position) (action : Action) :
    (Eval.perform env enter p action).Refines (Eval.perform env' enter' p action) := by
  induction action with
  | finish v => exact refl _
  | fail cause => exact refl _
  | log message next ih => exact bind (refl _) fun _ => ih
  | read name next ih => exact bind (readVariable henter ha name p) ih
  | bind name v next ih => exact bind (refl _) fun _ => ih

theorem callMacro (d : MacroDef) (address : Address) (scope : Nat) (p : Position) (arguments : List Argument) :
    (Eval.callMacro env enter d address scope p arguments).Refines
      (Eval.callMacro env' enter' d address scope p arguments) := by
  intro c
  unfold Eval.callMacro
  split
  · exact .refl _
  · cases d.bindArguments arguments with
    | error cause => exact .refl _
    | ok bindings =>
      exact bind ((inScope ha (bind (refl _) fun _ => henter _ _) scope).andThen _) (fun _ => refl _) _

theorem call (f : Function) (p : Position) (arguments : List Argument) :
    (Eval.call env enter f p arguments).Refines (Eval.call env' enter' f p arguments) := by
  cases f with
  | defined d address scope => exact callMacro henter ha d address scope p arguments
  | _ =>
    rw [Eval.call, Eval.call, ha.action]
    · exact inChild ha (perform henter ha p _)
    · simp
    · simp

end
end Refines
end Eval

/-! ### Expressions and nodes -/

section
open Eval
variable {env env' : Environment} {enter enter' : Body → Address → Eval String}

mutual

theorem Expr.eval_refines (henter : ∀ body address, (enter body address).Refines (enter' body address))
    (ha : env.Agrees env') : ∀ e : Expr, (e.eval env enter).Refines (e.eval env' enter')
  | .literal .. => by
    rw [Expr.eval, Expr.eval]
    exact .refl _
  | .list _ items => by
    rw [Expr.eval, Expr.eval]
    exact .bind (Expr.evalAll_refines henter ha items) fun _ => .refl _
  | .name p name => by
    rw [Expr.eval, Expr.eval]
    exact .readVariable henter ha name p
  | .member _ target _ => by
    rw [Expr.eval, Expr.eval]
    exact .bind (target.eval_refines henter ha) fun _ => .refl _
  | .index _ target index => by
    rw [Expr.eval, Expr.eval]
    exact .bind (target.eval_refines henter ha) fun _ => .bind (index.eval_refines henter ha) fun _ => .refl _
  | .binary _ op left right => by
    rw [Expr.eval, Expr.eval]
    refine .bind (left.eval_refines henter ha) fun a => ?_
    have hright := right.eval_refines henter ha
    cases op with
    | and =>
      dsimp only
      split
      · exact hright
      · exact .refl _
    | or =>
      dsimp only
      split
      · exact .refl _
      · exact hright
    | _ => exact .bind hright fun _ => .refl _
  | .unary _ _ operand => by
    rw [Expr.eval, Expr.eval]
    exact .bind (operand.eval_refines henter ha) fun _ => .refl _
  | .call p callee arguments => by
    rw [Expr.eval, Expr.eval]
    refine .bind (CallArgument.evalAll_refines henter ha arguments) fun _ => ?_
    refine .bind (callee.eval_refines henter ha) fun v => ?_
    cases v with
    | function f => exact .call henter ha f p _
    | _ => exact .refl _

theorem Expr.evalAll_refines (henter : ∀ body address, (enter body address).Refines (enter' body address))
    (ha : env.Agrees env') : ∀ es : List Expr, (Expr.evalAll env enter es).Refines (Expr.evalAll env' enter' es)
  | [] => by
    rw [Expr.evalAll, Expr.evalAll]
    exact .refl _
  | e :: es => by
    rw [Expr.evalAll, Expr.evalAll]
    exact .bind (e.eval_refines henter ha) fun _ => .bind (Expr.evalAll_refines henter ha es) fun _ => .refl _

theorem CallArgument.eval_refines (henter : ∀ body address, (enter body address).Refines (enter' body address))
    (ha : env.Agrees env') : ∀ a : CallArgument, (a.eval env enter).Refines (a.eval env' enter')
  | ⟨_, e⟩ => by
    rw [CallArgument.eval, CallArgument.eval]
    exact .bind (e.eval_refines henter ha) fun _ => .refl _

theorem CallArgument.evalAll_refines (henter : ∀ body address, (enter body address).Refines (enter' body address))
    (ha : env.Agrees env') : ∀ as : List CallArgument,
    (CallArgument.evalAll env enter as).Refines (CallArgument.evalAll env' enter' as)
  | [] => by
    rw [CallArgument.evalAll, CallArgument.evalAll]
    exact .refl _
  | a :: as => by
    rw [CallArgument.evalAll, CallArgument.evalAll]
    exact .bind (a.eval_refines henter ha) fun _ => .bind (CallArgument.evalAll_refines henter ha as) fun _ => .refl _

end

mutual

theorem Node.render_refines (henter : ∀ body address, (enter body address).Refines (enter' body address))
    (ha : env.Agrees env') (address : Address) (step : Nat) :
    ∀ node : Node, (node.render env enter address step).Refines (node.render env' enter' address step)
  | .text .. => by
    rw [Node.render, Node.render]
    exact .refl _
  | .output _ expr => by
    rw [Node.render, Node.render]
    exact .bind (expr.eval_refines henter ha) fun _ => .refl _
  | .branch _ condition body rest => by
    rw [Node.render, Node.render]
    refine .bind (condition.eval_refines henter ha) fun v => ?_
    split
    · exact body.render_refines henter ha _
    · exact rest.render_refines henter ha _ _
  | .loop p targets iterable body => by
    rw [Node.render, Node.render]
    refine .bind (iterable.eval_refines henter ha) fun v => ?_
    cases loopRounds p targets iterable v with
    | error e => exact .refl _
    | ok rounds =>
      exact .inChild ha (.joinAll
        (fun _ => .bind (.refl _) fun _ => .bind (.refl _) fun _ => body.render_refines henter ha _) _ _)
  | .macroDef _ => by
    rw [Node.render, Node.render]
    exact .refl _
  | .assign _ _ value => by
    rw [Node.render, Node.render]
    exact .bind (value.eval_refines henter ha) fun _ => .refl _

theorem Alternative.render_refines (henter : ∀ body address, (enter body address).Refines (enter' body address))
    (ha : env.Agrees env') (address : Address) (arm : Nat) :
    ∀ rest : Alternative, (rest.render env enter address arm).Refines (rest.render env' enter' address arm)
  | .nothing => by
    rw [Alternative.render, Alternative.render]
    exact .refl _
  | .otherwise body => by
    rw [Alternative.render, Alternative.render]
    exact body.render_refines henter ha _
  | .elseIf condition body rest => by
    rw [Alternative.render, Alternative.render]
    refine .bind (condition.eval_refines henter ha) fun v => ?_
    split
    · exact body.render_refines henter ha _
    · exact rest.render_refines henter ha _ _

theorem Body.render_refines (henter : ∀ body address, (enter body address).Refines (enter' body address))
    (ha : env.Agrees env') (address : Address) :
    ∀ body : Body, (body.render env enter address).Refines (body.render env' enter' address)
  | ⟨_, nodes⟩ => by
    rw [Body.render, Body.render]
    exact Node.renderAll_refines henter ha address 0 "" nodes

theorem Node.renderAll_refines (henter : ∀ body address, (enter body address).Refines (enter' body address))
    (ha : env.Agrees env') (address : Address) (step : Nat) (text : String) : ∀ nodes : List Node,
    (Node.renderAll env enter address step text nodes).Refines (Node.renderAll env' enter' address step text nodes)
  | [] => by
    rw [Node.renderAll, Node.renderAll]
    exact .refl _
  | node :: nodes => by
    have hnode := node.render_refines henter ha address step
    cases node with
    | text p more =>
      rw [Node.renderAll, Node.renderAll]
      exact Node.renderAll_refines henter ha address step (text ++ more) nodes
    | _ =>
      rw [Node.renderAll, Node.renderAll]
      · exact .bind hnode fun more => Node.renderAll_refines henter ha address (step + 1) (text ++ more) nodes
      · simp
      · simp

end

end

/-! ### Allowances -/

variable {env env' : Environment} {n m : Nat}

theorem renderBody_refines (ha : env.Agrees env') (h : n ≤ m) (body : Body) (address : Address) :
    (renderBody env n body address).Refines (renderBody env' m body address) := by
  induction n generalizing m body address with
  | zero => exact fun c => Or.inl rfl
  | succ n ih =>
    obtain ⟨m, rfl⟩ := Nat.exists_eq_add_of_lt h
    exact body.render_refines (ih (Nat.le_add_right n m)) ha address

/-- A body is rendered the same with every allowance that there is not more room for. -/
theorem renderBody_eq (hf : env.Forgets) {c : Context} (hn : env.room c < n) (hm : env.room c < m) (body : Body)
    (address : Address) : renderBody env n body address c = renderBody env m body address c := by
  have hle : ∀ {n m}, env.room c < n → n ≤ m → renderBody env n body address c = renderBody env m body address c := by
    intro n m hn h
    obtain ⟨d, hd⟩ := (renderBody_keeps hf n body address).ends hn
    exact (renderBody_refines (.refl env) h body address c).eq_of_context? hd
  rcases Nat.le_total n m with h | h
  · exact hle hn h
  · exact (hle hm h).symm

/-- The allowance of an environment is as good as any larger one. -/
theorem Environment.enter_eq_renderBody (hf : env.Forgets) (h : env.allowance ≤ n) (body : Body) (address : Address) :
    env.enter body address = renderBody env n body address :=
  funext fun c =>
    renderBody_eq hf (env.room_lt_allowance c) (Nat.lt_of_lt_of_le (env.room_lt_allowance c) h) body address

/-- No allowance shows in how bodies are opened: a body opened inside another one is rendered like any other. -/
theorem Environment.enter_eq (hf : env.Forgets) (body : Body) (address : Address) :
    env.enter body address = body.render env env.enter address :=
  env.enter_eq_renderBody hf (Nat.le_succ _) body address

/-- Environments that agree render every body alike. -/
theorem Environment.Agrees.enter_eq (ha : env.Agrees env') (hf : env.Forgets) : env'.enter = env.enter := by
  funext body address c
  have hf' : env'.Forgets := by
    rw [Environment.Forgets, ha.discard]
    exact hf
  have hle := Nat.le_max_right env.allowance env'.allowance
  obtain ⟨d, hd⟩ := (env.enter_keeps hf body address).ends (env.room_lt_allowance c)
  rw [env'.enter_eq_renderBody hf' hle]
  exact ((renderBody_refines ha (Nat.le_max_left _ _) body address c).eq_of_context? hd).symm

end TemplatedSql
