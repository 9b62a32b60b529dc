import TemplatedSql.Proofs.Import.Watch

/-! # What holds of every watched evaluation

What the single steps of the evaluator have, and its ways of putting evaluations together keep, every expression and
every body has. -/

namespace TemplatedSql

/-- An evaluation that ends, keeps its frame and imports nothing. -/
def Eval.Quiet {α : Type} (env : Environment) (m : Eval α) : Prop :=
  ∀ c, ∃ d, (m c).context? = some d ∧ Frame env Set.univ c d ∧ d.imported = c.imported

namespace Eval.Quiet
variable {α : Type} {env : Environment}

theorem pure (v : α) : (Eval.pure v).Quiet env :=
  fun c => ⟨c, rfl, .refl c, rfl⟩

theorem fail (p : Position) (cause : Cause) : (Eval.fail p cause : Eval α).Quiet env :=
  fun c => ⟨c, rfl, .refl c, rfl⟩

theorem located (p : Position) (r : Except Cause α) : (Eval.located p r).Quiet env := by
  cases r with
  | ok v => exact pure v
  | error cause => exact fail p cause

theorem context : Eval.context.Quiet env :=
  fun c => ⟨c, rfl, .refl c, rfl⟩

theorem update {f : Context → Context} (h : ∀ c, Frame env Set.univ c (f c)) (hi : ∀ c, (f c).imported = c.imported) :
    (Eval.update f).Quiet env :=
  fun c => ⟨f c, rfl, h c, hi c⟩

theorem bound (name : String) (v : Context → Value) : (Eval.update fun c => c.bind name (v c)).Quiet env :=
  update (fun c => Frame.bind (Set.mem_univ name) c (v c)) fun _ => rfl

theorem boundAll (bindings : Table Value) :
    (Eval.update fun c => bindings.foldl (fun c b => c.bind b.1 b.2) c).Quiet env := by
  refine update (fun c => Frame.bindAll (fun _ _ => Set.mem_univ _) c) fun c => ?_
  induction bindings generalizing c with
  | nil => rfl
  | cons b bindings ih => exact ih (c.bind b.1 b.2)

theorem keeps {m : Eval α} (h : m.Quiet env) (n : Nat) : m.Keeps env n Set.univ :=
  .of_step fun c => by
    obtain ⟨d, hd, hframe, -⟩ := h c
    exact ⟨d, hd, hframe⟩

end Eval.Quiet

namespace Watched

/-- What evaluations that import nothing have, and what the ways of putting evaluations together keep. -/
structure Closed (env : Environment) (enter : Body → Address → Watched String)
    (P : ∀ {α : Type}, Watched α → Prop) : Prop where
  quiet : ∀ {α : Type} {m : Eval α}, m.Quiet env → P (Watched.quiet m)
  bind : ∀ {α β : Type} {m : Watched α} {f : α → Watched β}, P m → (∀ v, P (f v)) → P (m >>= f)
  inChild : ∀ {α : Type} {m : Watched α}, P m → P (Watched.inChild env m)
  readVariable : ∀ name p, P (Watched.readVariable env enter name p)
  callMacro : ∀ d address scope p arguments, P (Watched.callMacro env enter d address scope p arguments)

namespace Closed
variable {α : Type} {env : Environment} {enter : Body → Address → Watched String}
  {P : ∀ {α : Type}, Watched α → Prop} (h : Closed env enter P)
include h

theorem pure (v : α) : P (Pure.pure v : Watched α) :=
  h.quiet (.pure v)

theorem fail (p : Position) (cause : Cause) : P (Watched.quiet (Eval.fail p cause) : Watched α) :=
  h.quiet (.fail p cause)

theorem located (p : Position) (r : Except Cause α) : P (Watched.quiet (Eval.located p r)) :=
  h.quiet (.located p r)

theorem bound (name : String) (v : Context → Value) :
    P (Watched.quiet (Eval.update fun c => c.bind name (v c))) :=
  h.quiet (.bound name v)

theorem boundAll (bindings : Table Value) :
    P (Watched.quiet (Eval.update fun c => bindings.foldl (fun c b => c.bind b.1 b.2) c)) :=
  h.quiet (.boundAll bindings)

theorem joinAll {f : α → Watched String} (hf : ∀ a, P (f a)) (text : String) (as : List α) :
    P (Watched.joinAll f text as) := by
  induction as generalizing text with
  | nil => exact h.pure text
  | cons a as ih => exact h.bind (hf a) fun s => ih (text ++ s)

theorem perform (p : Position) (action : Action) : P (Watched.perform env enter p action) := by
  induction action with
  | finish v => exact h.pure v
  | fail cause => exact h.fail p cause
  | log message next ih =>
    exact h.bind (h.quiet (.update (fun c => Frame.of_eq rfl rfl rfl rfl) fun _ => rfl)) fun _ => ih
  | read name next ih => exact h.bind (h.readVariable name p) ih
  | bind name v next ih => exact h.bind (h.bound name fun _ => v) fun _ => ih

theorem call (f : Function) (p : Position) (arguments : List Argument) : P (Watched.call env enter f p arguments) := by
  cases f with
  | defined d address scope => exact h.callMacro d address scope p arguments
  | _ => exact h.inChild (h.perform p _)

end Closed
end Watched

/-! ### Expressions and bodies -/

section
open Watched
variable {env : Environment} {enter : Body → Address → Watched String} {P : ∀ {α : Type}, Watched α → Prop}

mutual

theorem Expr.watch_closed (h : Closed env enter P) : ∀ e : Expr, P (e.watch env enter)
  | .literal .. => by
    rw [Expr.watch]
    exact h.pure _
  | .list _ items => by
    rw [Expr.watch]
    exact h.bind (Expr.watchAll_closed h items) fun _ => h.pure _
  | .name p name => by
    rw [Expr.watch]
    exact h.readVariable name p
  | .member _ target _ => by
    rw [Expr.watch]
    exact h.bind (target.watch_closed h) fun _ => h.bind (h.quiet .context) fun _ =>
      h.bind (h.quiet (.update (fun c => Frame.of_eq rfl rfl rfl rfl) fun _ => rfl)) fun _ => h.pure _
  | .index _ target index => by
    rw [Expr.watch]
    exact h.bind (target.watch_closed h) fun _ => h.bind (index.watch_closed h) fun _ => h.located _ _
  | .binary _ op left right => by
    rw [Expr.watch]
    refine h.bind (left.watch_closed h) fun a => ?_
    have hright := right.watch_closed h
    cases op with
    | and =>
      dsimp only
      split
      · exact hright
      · exact h.pure _
    | or =>
      dsimp only
      split
      · exact h.pure _
      · exact hright
    | _ => exact h.bind hright fun _ => h.located _ _
  | .unary _ op operand => by
    rw [Expr.watch]
    refine h.bind (operand.watch_closed h) fun _ => ?_
    cases op with
    | not => exact h.pure _
    | neg => exact h.located _ _
  | .call p callee arguments => by
    rw [Expr.watch]
    refine h.bind (CallArgument.watchAll_closed h arguments) fun _ => h.bind (callee.watch_closed h) fun v => ?_
    cases v with
    | function f => exact h.call f p _
    | _ => exact h.fail _ _

theorem Expr.watchAll_closed (h : Closed env enter P) : ∀ es : List Expr, P (Expr.watchAll env enter es)
  | [] => by
    rw [Expr.watchAll]
    exact h.pure _
  | e :: es => by
    rw [Expr.watchAll]
    exact h.bind (e.watch_closed h) fun _ => h.bind (Expr.watchAll_closed h es) fun _ => h.pure _

theorem CallArgument.watch_closed (h : Closed env enter P) : ∀ a : CallArgument, P (a.watch env enter)
  | ⟨_, e⟩ => by
    rw [CallArgument.watch]
    exact h.bind (e.watch_closed h) fun _ => h.pure _

theorem CallArgument.watchAll_closed (h : Closed env enter P) :
    ∀ as : List CallArgument, P (CallArgument.watchAll env enter as)
  | [] => by
    rw [CallArgument.watchAll]
    exact h.pure _
  | a :: as => by
    rw [CallArgument.watchAll]
    exact h.bind (a.watch_closed h) fun _ => h.bind (CallArgument.watchAll_closed h as) fun _ => h.pure _

end

mutual

theorem Node.watch_closed (h : Closed env enter P) (address : Address) (step : Nat) :
    ∀ node : Node, P (node.watch env enter address step)
  | .text .. => by
    rw [Node.watch]
    exact h.pure _
  | .output _ expr => by
    rw [Node.watch]
    exact h.bind (expr.watch_closed h) fun _ => h.pure _
  | .branch _ condition body rest => by
    rw [Node.watch]
    refine h.bind (condition.watch_closed h) fun v => ?_
    split
    · exact body.watch_closed h _
    · exact rest.watch_closed h _ _
  | .loop p targets iterable body => by
    rw [Node.watch]
    refine h.bind (iterable.watch_closed h) fun v => ?_
    cases loopRounds p targets iterable v with
    | error e => exact h.quiet fun c => ⟨c, rfl, Frame.refl c, rfl⟩
    | ok rounds =>
      exact h.inChild (h.joinAll (fun _ => h.bind (h.boundAll _) fun _ => h.bind (h.bound _ fun _ => _) fun _ =>
        body.watch_closed h _) "" rounds.zipIdx)
  | .macroDef d => by
    rw [Node.watch]
    exact h.bind (h.bound d.name fun c => .function (.defined d _ c.current)) fun _ => h.pure _
  | .assign p name value => by
    rw [Node.watch]
    exact h.bind (value.watch_closed h) fun v => h.bind (h.bound name fun _ => v) fun _ => h.pure _

theorem Alternative.watch_closed (h : Closed env enter P) (address : Address) (arm : Nat) :
    ∀ rest : Alternative, P (rest.watch env enter address arm)
  | .nothing => by
    rw [Alternative.watch]
    exact h.pure _
  | .otherwise body => by
    rw [Alternative.watch]
    exact body.watch_closed h _
  | .elseIf condition body rest => by
    rw [Alternative.watch]
    refine h.bind (condition.watch_closed h) fun v => ?_
    split
    · exact body.watch_closed h _
    · exact rest.watch_closed h _ _

theorem Body.watch_closed (h : Closed env enter P) (address : Address) :
    ∀ body : Body, P (body.watch env enter address)
  | ⟨_, nodes⟩ => by
    rw [Body.watch]
    exact Node.watchAll_closed h address 0 "" nodes

theorem Node.watchAll_closed (h : Closed env enter P) (address : Address) (step : Nat) (text : String) :
    ∀ nodes : List Node, P (Node.watchAll env enter address step text nodes)
  | [] => by
    rw [Node.watchAll]
    exact h.pure _
  | node :: nodes => by
    have htail := fun step text => Node.watchAll_closed h address step text nodes
    have hhead := node.watch_closed h address step
    cases node with
    | text p more =>
      rw [Node.watchAll]
      exact htail step (text ++ more)
    | _ =>
      rw [Node.watchAll]
      · exact h.bind hhead fun more => htail (step + 1) (text ++ more)
      · simp

end

end
end TemplatedSql
