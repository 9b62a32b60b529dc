import TemplatedSql.Proofs.Relocation.Evaluation
import TemplatedSql.Proofs.Relocation.Source

/-! # Rendering moved trees -/

namespace TemplatedSql

section
open Eval
variable {env : Environment} {h g k : Position → Position} {K : Position → Position → Prop}
  {enter enter' : Body → Address → Eval String}

/-! ### Expressions -/

mutual

theorem Expr.eval_relocated (henter : EntersAlike h enter enter') (hplaceless : env.Placeless)
    (hh : ∀ p, K p (h p)) (hg : ∀ p, K p (g p)) : ∀ e : Expr,
    Eval.Relocated h K (Value.relocate h) (e.eval env enter) ((e.relocate g).eval (env.relocate h k) enter')
  | .literal _ v => by
    rw [Expr.relocate, Expr.eval, Expr.eval]
    have hpure := Eval.Relocated.pure (h := h) (K := K) (r := Value.relocate h) (Value.ofLiteral v)
    rwa [Value.ofLiteral_relocate] at hpure
  | .list _ items => by
    rw [Expr.relocate, Expr.eval, Expr.eval]
    refine .bind (Expr.evalAll_relocated henter hplaceless hh hg items) fun vs => ?_
    rw [← Value.relocateAll_eq_map, ← Value.relocate]
    exact .pure _
  | .name p name => by
    rw [Expr.relocate, Expr.eval, Expr.eval]
    exact readVariable_relocated henter name (hg p)
  | .member _ target name => by
    rw [Expr.relocate, Expr.eval, Expr.eval]
    refine .bind (target.eval_relocated henter hplaceless hh hg) fun v c c' hc => ?_
    have hcounted : Context.Relocated h { c with accesses := c.accesses + 1 }
        { c' with accesses := c'.accesses + 1 } :=
      { hc with accesses := by rw [hc.accesses] }
    have hdone := Outcome.Relocated.done (K := K) (r := Value.relocate h) (v.member c.accesses name) hcounted
    have hvalue : (v.relocate h).member c'.accesses name = (v.member c.accesses name).relocate h := by
      rw [hc.accesses, Value.member_relocate]
    rw [← hvalue] at hdone
    exact hdone
  | .index p target index => by
    rw [Expr.relocate, Expr.eval, Expr.eval]
    refine .bind (target.eval_relocated henter hplaceless hh hg) fun v => ?_
    refine .bind (index.eval_relocated henter hplaceless hh hg) fun i => ?_
    exact .located (hg p) (Value.index_relocate h v i)
  | .binary p op left right => by
    rw [Expr.relocate, Expr.eval, Expr.eval]
    refine .bind (left.eval_relocated henter hplaceless hh hg) fun a => ?_
    have hright := right.eval_relocated henter hplaceless hh hg
    cases op with
    | and | or =>
      dsimp only
      rw [Value.truthy_relocate]
      split
      · first | exact hright | exact .pure a
      · first | exact hright | exact .pure a
    | _ => exact .bind hright fun b => .located (hg p) (Value.binary_relocate h _ a b)
  | .unary p op operand => by
    rw [Expr.relocate, Expr.eval, Expr.eval]
    refine .bind (operand.eval_relocated henter hplaceless hh hg) fun v => ?_
    cases op with
    | not =>
      dsimp only
      rw [Value.truthy_relocate]
      exact .pure (Value.boolean !v.truthy)
    | neg => exact .located (hg p) (Value.negate_relocate h v)
  | .call p callee arguments => by
    rw [Expr.relocate, Expr.eval, Expr.eval]
    refine .bind (CallArgument.evalAll_relocated henter hplaceless hh hg arguments) fun as => ?_
    refine .bind (callee.eval_relocated henter hplaceless hh hg) fun v => ?_
    cases v with
    | function f => exact call_relocated henter hh hplaceless f (hg p) as
    | _ => exact .fail (hg p) _ _

theorem Expr.evalAll_relocated (henter : EntersAlike h enter enter') (hplaceless : env.Placeless)
    (hh : ∀ p, K p (h p)) (hg : ∀ p, K p (g p)) : ∀ es : List Expr,
    Eval.Relocated h K (List.map (Value.relocate h)) (Expr.evalAll env enter es)
      (Expr.evalAll (env.relocate h k) enter' (Expr.relocateAll g es))
  | [] => by
    rw [Expr.relocateAll, Expr.evalAll, Expr.evalAll]
    exact .pure []
  | e :: es => by
    rw [Expr.relocateAll, Expr.evalAll, Expr.evalAll]
    refine .bind (e.eval_relocated henter hplaceless hh hg) fun v => ?_
    exact .bind (Expr.evalAll_relocated henter hplaceless hh hg es) fun vs => .pure (v :: vs)

theorem CallArgument.evalAll_relocated (henter : EntersAlike h enter enter') (hplaceless : env.Placeless)
    (hh : ∀ p, K p (h p)) (hg : ∀ p, K p (g p)) : ∀ as : List CallArgument,
    Eval.Relocated h K (List.map (Argument.relocate h)) (CallArgument.evalAll env enter as)
      (CallArgument.evalAll (env.relocate h k) enter' (CallArgument.relocateAll g as))
  | [] => by
    rw [CallArgument.relocateAll, CallArgument.evalAll, CallArgument.evalAll]
    exact .pure []
  | ⟨name, e⟩ :: as => by
    rw [CallArgument.relocateAll, CallArgument.relocate, CallArgument.evalAll, CallArgument.evalAll,
      CallArgument.eval, CallArgument.eval]
    have hvalue : Eval.Relocated h K (Argument.relocate h)
        (do
          let v ← e.eval env enter
          Eval.pure ⟨name, v⟩)
        (do
          let v ← (e.relocate g).eval (env.relocate h k) enter'
          Eval.pure ⟨name, v⟩) :=
      .bind (e.eval_relocated henter hplaceless hh hg) fun v => .pure (⟨name, v⟩ : Argument)
    refine .bind hvalue fun a => ?_
    exact .bind (CallArgument.evalAll_relocated henter hplaceless hh hg as) fun as => .pure (a :: as)

end

/-! ### Nodes -/

theorem Expr.position_relocate (e : Expr) : (e.relocate g).position = g e.position := by
  cases e <;> rfl

/-- The rounds of a moved loop are the rounds of the loop moved, or it fails as well, for the same cause. -/
theorem loopRounds_relocated (hg : ∀ p, K p (g p)) (p : Position) (targets : Targets) (iterable : Expr) (v : Value) :
    (∃ rounds, loopRounds p targets iterable v = .ok rounds ∧
      loopRounds (g p) targets (iterable.relocate g) (v.relocate h) = .ok (rounds.map (Value.relocateEntries h))) ∨
    ∃ e e', (K e.position e'.position ∧ e.cause = e'.cause) ∧ loopRounds p targets iterable v = .error e ∧
      loopRounds (g p) targets (iterable.relocate g) (v.relocate h) = .error e' := by
  cases v with
  | list items =>
    cases targets with
    | one name =>
      refine .inl ⟨_, rfl, ?_⟩
      simp [loopRounds, Value.relocateAll_eq_map, Function.comp_def]
    | two first second =>
      simp only [loopRounds, Value.relocate, Value.relocateAll_eq_map, List.mapM_map]
      refine mapM_ends_alike (fun item => ?_) items
      cases item with
      | list parts =>
        rcases parts with _ | ⟨a, _ | ⟨b, _ | ⟨c, more⟩⟩⟩
        · exact .inr ⟨⟨p, _⟩, ⟨g p, _⟩, ⟨hg p, rfl⟩, rfl, rfl⟩
        · exact .inr ⟨⟨p, _⟩, ⟨g p, _⟩, ⟨hg p, rfl⟩, rfl, rfl⟩
        · exact .inl ⟨_, rfl, rfl⟩
        · exact .inr ⟨⟨p, _⟩, ⟨g p, _⟩, ⟨hg p, rfl⟩, rfl, rfl⟩
      | _ => exact .inr ⟨⟨p, _⟩, ⟨g p, _⟩, ⟨hg p, rfl⟩, rfl, rfl⟩
  | mapping entries =>
    refine .inl ?_
    cases targets with
    | one name =>
      refine ⟨_, rfl, ?_⟩
      simp [loopRounds, Value.relocateEntries_eq_map, Function.comp_def]
    | two first second =>
      refine ⟨_, rfl, ?_⟩
      simp [loopRounds, Value.relocateEntries_eq_map, Function.comp_def]
  | undefined =>
    refine .inr ⟨_, _, ⟨?_, ?_⟩, rfl, rfl⟩
    · rw [undefinedError, undefinedError, Expr.position_relocate]
      exact hg iterable.position
    · rw [undefinedError, undefinedError, Expr.source_relocate]
  | _ => exact .inr ⟨⟨p, _⟩, ⟨g p, _⟩, ⟨hg p, rfl⟩, rfl, rfl⟩

/-- A node goes on with the texts after it. -/
theorem Node.renderAll_before (address : Address) (step : Nat) (text : String) (n : Node) (ns : List Node) :
    Node.renderAll env enter address step text (n.before ns) = Node.renderAll env enter address step text (n :: ns) := by
  unfold before
  split
  · rw [renderAll, renderAll, renderAll, String.append_assoc]
  · rfl

mutual

theorem Node.render_relocated (henter : EntersAlike h enter enter') (hplaceless : env.Placeless) (hh : ∀ p, K p (h p))
    (address : Address) (step : Nat) : ∀ (n : Node) {g : Position → Position}, (∀ p, K p (g p)) →
    Eval.Relocated h K id (n.render env enter address step)
      ((n.relocate h g).render (env.relocate h k) enter' address step)
  | .text _ s, _, _ => by
    rw [Node.relocate, Node.render, Node.render]
    exact .pure s
  | .output _ e, g, hg => by
    rw [Node.relocate, Node.render, Node.render]
    refine .bind (e.eval_relocated henter hplaceless hh hg) fun v => ?_
    rw [Value.text_relocate]
    exact .pure v.text
  | .branch _ condition body rest, g, hg => by
    rw [Node.relocate, Node.render, Node.render]
    refine .bind (condition.eval_relocated henter hplaceless hh hg) fun v => ?_
    rw [Value.truthy_relocate]
    split
    · exact body.render_relocated henter hplaceless hh _ hg
    · exact rest.render_relocated henter hplaceless hh _ 1 hg
  | .loop p targets iterable body, g, hg => by
    rw [Node.relocate, Node.render, Node.render]
    refine .bind (iterable.eval_relocated henter hplaceless hh hg) fun v => ?_
    rcases loopRounds_relocated (h := h) hg p targets iterable v with
      ⟨rounds, heq, heq'⟩ | ⟨e, e', ⟨hkept, -⟩, heq, heq'⟩
    · rw [heq, heq']
      exact Eval.inChild_relocated hplaceless.release
        (.rounds (body.render_relocated henter hplaceless hh _ hg) rounds)
    · rw [heq, heq']
      exact fun c c' hc => .failed hkept hc
  | .macroDef d, _, _ => by
    rw [Node.relocate, Node.render, Node.render]
    refine .bind (.update fun c c' hc => ?_) fun _ => .pure ""
    rw [MacroDef.name_relocate, hc.current]
    exact hc.bind d.name (.function (.defined d _ c.current))
  | .assign _ name e, g, hg => by
    rw [Node.relocate, Node.render, Node.render]
    exact .bind (e.eval_relocated henter hplaceless hh hg) fun v =>
      .bind (.update fun c c' hc => hc.bind name v) fun _ => .pure ""

theorem Alternative.render_relocated (henter : EntersAlike h enter enter') (hplaceless : env.Placeless)
    (hh : ∀ p, K p (h p)) (address : Address) (arm : Nat) : ∀ (a : Alternative) {g : Position → Position},
    (∀ p, K p (g p)) →
    Eval.Relocated h K id (a.render env enter address arm)
      ((a.relocate h g).render (env.relocate h k) enter' address arm)
  | .nothing, _, _ => by
    rw [Alternative.relocate, Alternative.render, Alternative.render]
    exact .pure ""
  | .otherwise body, _, hg => by
    rw [Alternative.relocate, Alternative.render, Alternative.render]
    exact body.render_relocated henter hplaceless hh _ hg
  | .elseIf condition body rest, g, hg => by
    rw [Alternative.relocate, Alternative.render, Alternative.render]
    refine .bind (condition.eval_relocated henter hplaceless hh hg) fun v => ?_
    rw [Value.truthy_relocate]
    split
    · exact body.render_relocated henter hplaceless hh _ hg
    · exact rest.render_relocated henter hplaceless hh address (arm + 1) hg

theorem Body.render_relocated (henter : EntersAlike h enter enter') (hplaceless : env.Placeless)
    (hh : ∀ p, K p (h p)) (address : Address) : ∀ (b : Body) {g : Position → Position}, (∀ p, K p (g p)) →
    Eval.Relocated h K id (b.render env enter address) ((b.relocate h g).render (env.relocate h k) enter' address)
  | ⟨_, nodes⟩, _, hg => by
    rw [Body.relocate, Body.render, Body.render]
    exact Node.renderAll_relocated henter hplaceless hh address 0 "" nodes hg

theorem Node.renderAll_relocated (henter : EntersAlike h enter enter') (hplaceless : env.Placeless)
    (hh : ∀ p, K p (h p)) (address : Address) (step : Nat) (text : String) : ∀ (ns : List Node)
    {g : Position → Position}, (∀ p, K p (g p)) →
    Eval.Relocated h K id (Node.renderAll env enter address step text ns)
      (Node.renderAll (env.relocate h k) enter' address step text (Node.relocateAll h g ns))
  | [], _, _ => by
    rw [Node.relocateAll, Node.renderAll, Node.renderAll]
    exact .pure text
  | n :: ns, g, hg => by
    rw [Node.relocateAll, Node.renderAll_before]
    have hnode := n.render_relocated henter hplaceless hh address step hg
    cases n with
    | text p more =>
      rw [Node.relocate, Node.renderAll, Node.renderAll]
      exact Node.renderAll_relocated henter hplaceless hh address step (text ++ more) ns hg
    | _ =>
      rw [Node.relocate] at hnode ⊢
      rw [Node.renderAll, Node.renderAll]
      · exact .bind hnode fun more =>
          Node.renderAll_relocated henter hplaceless hh address (step + 1) (text ++ more) ns hg
      · simp
      · simp

end

/-- The rendering of a moved body, in an environment whose templates are moved, ends as that of the body does. -/
theorem renderBody_relocated (hplaceless : env.Placeless) (allowance : Nat) :
    EntersAlike h (renderBody env allowance) (renderBody (env.relocate h k) allowance) := by
  induction allowance with
  | zero => exact fun K g body address _ _ c c' _ => .exhausted
  | succ allowance ih => exact fun K g body address hg hh => body.render_relocated ih hplaceless hh address hg

end

end TemplatedSql
