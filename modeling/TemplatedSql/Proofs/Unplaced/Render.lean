import TemplatedSql.Proofs.Release
import TemplatedSql.Proofs.Unplaced.Evaluation

/-! # Rendering does not depend on places

A body and the same body without places are rendered in step. So are two bodies that are the same without places,
and what they render to in a new context is the same text, or they fail for the same cause. -/

namespace TemplatedSql

/-- Loops over values that are the same up to places have rounds that are, or fail for the same cause. -/
theorem loopRounds_unplaced (p q : Position) (targets : Targets) (iterable : Expr) {v w : Value}
    (hvw : v.unplaced = w.unplaced) :
    (∃ rounds rounds', loopRounds p targets iterable v = .ok rounds ∧
      loopRounds q targets (iterable.relocate Position.toStart) w = .ok rounds' ∧
      rounds.map Value.entriesUnplaced = rounds'.map Value.entriesUnplaced) ∨
    ∃ e e', e.cause = e'.cause ∧ loopRounds p targets iterable v = .error e ∧
      loopRounds q targets (iterable.relocate Position.toStart) w = .error e' := by
  have hleft := loopRounds_relocated (h := Position.toStart) (g := Position.toStart) (K := fun _ _ => True)
    (fun _ => trivial) p targets iterable v
  have hright := loopRounds_relocated (h := Position.toStart) (g := Position.toStart) (K := fun _ _ => True)
    (fun _ => trivial) q targets (iterable.relocate Position.toStart) w
  rw [Expr.relocate_relocate, show w.relocate Position.toStart = v.relocate Position.toStart from hvw.symm] at hright
  rcases hleft with ⟨rounds, heq, hmoved⟩ | ⟨e, d, ⟨-, hcause⟩, heq, hmoved⟩
  · rcases hright with ⟨rounds', heq', hmoved'⟩ | ⟨e', d', -, -, hmoved'⟩
    · exact .inl ⟨rounds, rounds', heq, heq', Except.ok.inj (hmoved.symm.trans hmoved')⟩
    · cases hmoved.symm.trans hmoved'
  · rcases hright with ⟨rounds', -, hmoved'⟩ | ⟨e', d', ⟨-, hcause'⟩, heq', hmoved'⟩
    · cases hmoved.symm.trans hmoved'
    · cases Except.error.inj (hmoved.symm.trans hmoved')
      exact .inr ⟨e, e', hcause.trans hcause'.symm, heq, heq'⟩

section
open Eval
variable {env : Environment} {enter : Body → Address → Eval String}

/-- An environment and a way of rendering bodies that take no notice of places. -/
structure Eval.EntersUnplaced (env : Environment) (enter : Body → Address → Eval String) : Prop where
  placeless : env.Placeless
  read : ∀ name p q,
    Eval.Coincide Value.unplaced (readVariable env enter name p) (readVariable env enter name q)
  enter : ∀ body body' address, body.unplaced = body'.unplaced →
    Eval.Coincide id (enter body address) (enter body' address)

/-! ### Expressions -/

mutual

theorem Expr.eval_coincide (h : EntersUnplaced env enter) : ∀ e : Expr,
    Eval.Coincide Value.unplaced (e.eval env enter) ((e.relocate Position.toStart).eval env enter)
  | .literal _ v => by
    rw [Expr.relocate, Expr.eval, Expr.eval]
    exact .pure rfl
  | .list _ items => by
    rw [Expr.relocate, Expr.eval, Expr.eval]
    refine .bind (Expr.evalAll_coincide h items) fun vs ws hvs => .pure ?_
    rw [← Value.relocateAll_eq_map, ← Value.relocateAll_eq_map] at hvs
    exact congrArg Value.list hvs
  | .name p name => by
    rw [Expr.relocate, Expr.eval, Expr.eval]
    exact h.read name p _
  | .member _ target name => by
    rw [Expr.relocate, Expr.eval, Expr.eval]
    refine .bind (target.eval_coincide h) fun v w hvw blocks c c' hc => .done ?_ ?_
    · rw [hc.accesses]
      exact Value.member_unplaced c'.accesses name hvw
    · exact hc.of_eq rfl rfl rfl rfl rfl rfl hc.depth (congrArg (· + 1) hc.accesses)
  | .index p target index => by
    rw [Expr.relocate, Expr.eval, Expr.eval]
    exact .bind (target.eval_coincide h) fun v v' hv => .bind (index.eval_coincide h) fun w w' hw =>
      .located p _ (Value.index_unplaced hv hw)
  | .binary p op left right => by
    rw [Expr.relocate, Expr.eval, Expr.eval]
    refine .bind (left.eval_coincide h) fun v v' hv => ?_
    have hright := right.eval_coincide h
    cases op with
    | and | or =>
      dsimp only
      rw [Value.truthy_eq_of_unplaced hv]
      split
      · first | exact hright | exact .pure hv
      · first | exact hright | exact .pure hv
    | _ => exact .bind hright fun w w' hw => .located p _ (Value.binary_unplaced _ hv hw)
  | .unary p op operand => by
    rw [Expr.relocate, Expr.eval, Expr.eval]
    refine .bind (operand.eval_coincide h) fun v w hvw => ?_
    cases op with
    | not =>
      dsimp only
      rw [Value.truthy_eq_of_unplaced hvw]
      exact .pure rfl
    | neg => exact .located p _ (Value.negate_unplaced hvw)
  | .call p callee arguments => by
    rw [Expr.relocate, Expr.eval, Expr.eval]
    refine .bind (CallArgument.evalAll_coincide h arguments) fun as bs hargs =>
      .bind (callee.eval_coincide h) fun v w hvw => ?_
    rw [Expr.source_relocate]
    cases v with
    | function f =>
      cases w with
      | function g => exact call_coincide h.placeless h.read h.enter (Value.function.inj hvw) p _ hargs
      | _ => cases hvw
    | undefined =>
      cases w with
      | undefined => exact .fail p _ _
      | _ => cases hvw
    | _ => cases w <;> first | exact .fail p _ _ | cases hvw

theorem Expr.evalAll_coincide (h : EntersUnplaced env enter) :
    ∀ es : List Expr, Eval.Coincide (List.map Value.unplaced) (Expr.evalAll env enter es)
    (Expr.evalAll env enter (Expr.relocateAll Position.toStart es))
  | [] => by
    rw [Expr.relocateAll, Expr.evalAll]
    exact .pure rfl
  | e :: es => by
    rw [Expr.relocateAll, Expr.evalAll, Expr.evalAll]
    exact .bind (e.eval_coincide h) fun v w hvw => .bind (Expr.evalAll_coincide h es) fun vs ws hvs =>
      .pure (congrArg₂ List.cons hvw hvs)

theorem CallArgument.evalAll_coincide (h : EntersUnplaced env enter) : ∀ as : List CallArgument,
    Eval.Coincide (List.map Argument.unplaced) (CallArgument.evalAll env enter as)
      (CallArgument.evalAll env enter (CallArgument.relocateAll Position.toStart as))
  | [] => by
    rw [CallArgument.relocateAll, CallArgument.evalAll]
    exact .pure rfl
  | ⟨name, e⟩ :: as => by
    rw [CallArgument.relocateAll, CallArgument.relocate, CallArgument.evalAll, CallArgument.evalAll,
      CallArgument.eval, CallArgument.eval]
    have hvalue : Eval.Coincide Argument.unplaced
        (do
          let v ← e.eval env enter
          Eval.pure ⟨name, v⟩)
        (do
          let v ← (e.relocate Position.toStart).eval env enter
          Eval.pure ⟨name, v⟩) :=
      .bind (e.eval_coincide h) fun v w hvw => .pure (congrArg (Argument.mk name) hvw)
    exact .bind hvalue fun a b hab => .bind (CallArgument.evalAll_coincide h as) fun as bs hargs =>
      .pure (congrArg₂ List.cons hab hargs)

end

/-! ### Nodes -/

mutual

theorem Node.render_coincide (h : EntersUnplaced env enter) (address : Address) (step : Nat) : ∀ n : Node,
    Eval.Coincide id (n.render env enter address step)
      ((n.relocate Position.toStart Position.toStart).render env enter address step)
  | .text _ s => by
    rw [Node.relocate, Node.render, Node.render]
    exact .pure rfl
  | .output _ e => by
    rw [Node.relocate, Node.render, Node.render]
    exact .bind (e.eval_coincide h) fun v w hvw => .pure (Value.text_eq_of_unplaced hvw)
  | .branch _ condition body rest => by
    rw [Node.relocate, Node.render, Node.render]
    refine .bind (condition.eval_coincide h) fun v w hvw => ?_
    rw [Value.truthy_eq_of_unplaced hvw]
    split
    · exact body.render_coincide h _
    · exact rest.render_coincide h _ 1
  | .loop p targets iterable body => by
    rw [Node.relocate, Node.render, Node.render]
    refine .bind (iterable.eval_coincide h) fun v w hvw => ?_
    rcases loopRounds_unplaced p (Position.toStart p) targets iterable hvw with
      ⟨rounds, rounds', heq, heq', hrounds⟩ | ⟨e, e', hcause, heq, heq'⟩
    · rw [heq, heq']
      exact inChild_coincide h.placeless.release (.rounds (body.render_coincide h _) hrounds)
    · rw [heq, heq']
      exact fun blocks c c' hc => .failed hcause hc
  | .macroDef d => by
    rw [Node.relocate, Node.render, Node.render]
    refine .bind (.update fun blocks c c' hc => ?_) fun _ _ _ => .pure rfl
    rw [MacroDef.name_relocate, ← hc.current]
    refine hc.bind ?_ d.name
    simp only [Value.relocate, Function.relocate, d.unplaced_unplaced]
  | .assign _ name e => by
    rw [Node.relocate, Node.render, Node.render]
    exact .bind (e.eval_coincide h) fun v w hvw =>
      .bind (.update fun _ _ _ hc => hc.bind hvw name) fun _ _ _ => .pure rfl

theorem Alternative.render_coincide (h : EntersUnplaced env enter) (address : Address) (arm : Nat) : ∀ a : Alternative,
    Eval.Coincide id (a.render env enter address arm)
      ((a.relocate Position.toStart Position.toStart).render env enter address arm)
  | .nothing => by
    rw [Alternative.relocate, Alternative.render]
    exact .pure rfl
  | .otherwise body => by
    rw [Alternative.relocate, Alternative.render, Alternative.render]
    exact body.render_coincide h _
  | .elseIf condition body rest => by
    rw [Alternative.relocate, Alternative.render, Alternative.render]
    refine .bind (condition.eval_coincide h) fun v w hvw => ?_
    rw [Value.truthy_eq_of_unplaced hvw]
    split
    · exact body.render_coincide h _
    · exact rest.render_coincide h address (arm + 1)

/-- A body renders as it does without places. -/
theorem Body.render_coincide (h : EntersUnplaced env enter) (address : Address) : ∀ b : Body,
    Eval.Coincide id (b.render env enter address) (b.unplaced.render env enter address)
  | ⟨_, nodes⟩ => by
    rw [Body.unplaced, Body.relocate, Body.render, Body.render]
    exact Node.renderAll_coincide h address 0 "" nodes

theorem Node.renderAll_coincide (h : EntersUnplaced env enter) (address : Address) (step : Nat) (text : String) :
    ∀ ns : List Node,
    Eval.Coincide id (Node.renderAll env enter address step text ns)
      (Node.renderAll env enter address step text (Node.relocateAll Position.toStart Position.toStart ns))
  | [] => by
    rw [Node.relocateAll, Node.renderAll]
    exact .pure rfl
  | n :: ns => by
    rw [Node.relocateAll, Node.renderAll_before]
    have hnode := n.render_coincide h address step
    cases n with
    | text p more =>
      rw [Node.relocate, Node.renderAll, Node.renderAll]
      exact Node.renderAll_coincide h address step (text ++ more) ns
    | _ =>
      rw [Node.relocate] at hnode ⊢
      rw [Node.renderAll, Node.renderAll]
      · exact .bind hnode fun s t (hst : s = t) =>
          hst ▸ (Node.renderAll_coincide h) address (step + 1) (text ++ s) ns
      · simp
      · simp

end

end

/-- Bodies that are the same without places are rendered in step. -/
theorem renderBody_coincide {env : Environment} (hplaceless : env.Placeless) (henv : env.Alike .marks Eq env)
    (n : Nat) (body body' : Body) (address : Address) (h : body.unplaced = body'.unplaced) :
    Eval.Coincide id (renderBody env n body address) (renderBody env n body' address) := by
  induction n generalizing body body' address with
  | zero => exact fun _ _ _ _ => .exhausted
  | succ n ih =>
    have hbody (b : Body) := b.render_coincide
      ⟨hplaceless, Eval.readVariable_coincide hplaceless.release henv n, ih⟩ address
    have hright := (hbody body').symm
    rw [← h] at hright
    exact (hbody body).trans hright

/-- Bodies that are the same without places render in new contexts in step. -/
theorem Session.render_coincide {env : Environment} (hplaceless : env.Placeless)
    (huniform : ∀ f ∈ env.hosts, f.Uniform .marks)
    (hglobals : ∀ name v, env.globals.get? name = some v → v.scopes = [])
    (hoverlay : ∀ name v, env.overlay.get? name = some v → v.scopes = []) {body body' : Body}
    (h : body.unplaced = body'.unplaced) :
    Outcome.Coincide {0} id (render env body .initial) (render env body' .initial) := by
  have hf := Environment.forgets_release hplaceless.release
  have henv : env.Alike .marks Eq env :=
    { globals := Table.alike_self hglobals
      overlay := Table.alike_self hoverlay
      library := rfl
      hosts := rfl
      uniform := huniform
      forgets := hf
      forgets' := hf
      release := fun _ => ⟨hplaceless.release, hplaceless.release⟩ }
  exact renderBody_coincide hplaceless henv env.allowance body body' ⟨.given 0, []⟩ h _ _ _ (.initial 1)

/-- Rendering does not depend on places. Where the names outside templates have no macros, and native functions take no
    notice of places and of the marks of methods, two bodies that are the same without places render in new contexts
    to the same text, or both fail, with errors that differ in their place at most. -/
theorem rendering_independent_of_places {env : Environment} (hplaceless : env.Placeless)
    (huniform : ∀ f ∈ env.hosts, f.Uniform .marks)
    (hglobals : ∀ name v, env.globals.get? name = some v → v.scopes = [])
    (hoverlay : ∀ name v, env.overlay.get? name = some v → v.scopes = []) {body body' : Body}
    (h : body.unplaced = body'.unplaced) :
    (∃ text d d', Session.render env body .initial = .done text d ∧
      Session.render env body' .initial = .done text d') ∨
    ∃ cause p q d d', Session.render env body .initial = .failed ⟨p, cause⟩ d ∧
      Session.render env body' .initial = .failed ⟨q, cause⟩ d' := by
  have hrender := Session.render_coincide hplaceless huniform hglobals hoverlay h
  obtain ⟨d, hd⟩ := (Session.render_keeps (Environment.forgets_release hplaceless.release) body).ends
    (Nat.lt_succ_of_lt (env.room_lt_allowance .initial))
  generalize Session.render env body .initial = o at hrender hd ⊢
  generalize Session.render env body' .initial = o' at hrender ⊢
  cases hrender with
  | @done text _ c c' heq _ =>
    cases heq
    exact .inl ⟨text, c, c', rfl, rfl⟩
  | @failed e e' c c' hcause _ =>
    refine .inr ⟨e.cause, e.position, e'.position, c, c', rfl, ?_⟩
    rw [hcause]
  | exhausted => cases hd

/-- A macro that reads a template which cannot be rendered. The error tells where in the template it is, and does so
    wherever the macro stands and however the text before it is divided. -/
theorem rendering_independent_of_places_in_macro :
    let lib : Template := ⟨"lib", ⟨⟨1, 1⟩, [.output ⟨2, 1⟩ (.call ⟨2, 4⟩ (.name ⟨2, 4⟩ "missing") [])]⟩⟩
    let env : Environment := { globals := Environment.builtins, library := [("lib", lib)] }
    let tail (p q : Position) : List Node :=
      [.macroDef ⟨p, "m", [], ⟨p, [.output p (.name p "lib")]⟩⟩, .output q (.call q (.name q "m") [])]
    let body : Body := ⟨⟨1, 1⟩, .text ⟨1, 1⟩ "ab" :: tail ⟨1, 3⟩ ⟨1, 40⟩⟩
    let body' : Body := ⟨⟨1, 1⟩, .text ⟨1, 1⟩ "a" :: .text ⟨2, 1⟩ "b" :: tail ⟨3, 1⟩ ⟨5, 1⟩⟩
    let cause : Cause := .runtime "in `lib`: 2:4: function `missing` not found"
    body.unplaced = body'.unplaced ∧ (Session.render env body .initial).result? = some (.error ⟨⟨1, 3⟩, cause⟩) ∧
      ∃ q d, Session.render env body' .initial = .failed ⟨q, cause⟩ d := by
  intro lib env tail body body' cause
  have hresult : (Session.render env body .initial).result? = some (.error ⟨⟨1, 3⟩, cause⟩) := by
    decide +kernel
  have hglobals : ∀ name v, env.globals.get? name = some v → v.scopes = [] := by
    intro name v hv
    obtain ⟨b, -, hb⟩ := List.mem_map.mp (Table.mem_of_get? hv)
    cases hb
    rfl
  have hrender := rendering_independent_of_places ⟨rfl, List.forall_mem_nil _⟩ (List.forall_mem_nil _)
    hglobals (fun _ _ h => by cases h) (show body.unplaced = body'.unplaced from rfl)
  refine ⟨rfl, hresult, ?_⟩
  rcases hrender with ⟨text, d, d', hdone, -⟩ | ⟨cause', p, q, d, d', hfailed, hfailed'⟩
  · rw [hdone] at hresult
    cases hresult
  · rw [hfailed] at hresult
    obtain ⟨-, rfl⟩ := TemplateError.mk.inj (Except.error.inj (Option.some.inj hresult))
    exact ⟨q, d', hfailed'⟩

end TemplatedSql
