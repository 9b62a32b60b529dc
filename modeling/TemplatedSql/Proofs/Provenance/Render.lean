import TemplatedSql.Proofs.Provenance.Evaluation
import TemplatedSql.Proofs.Termination

/-! # The macros of a rendering

Where the macros that a tree defines are known, its rendering keeps to known macros, and fails with an error that is
reported at a place of the tree, unless the body of a known macro failed with it. Of the bodies of macros that are
rendered inside one another, the innermost one that failed with the error has its place. -/

namespace TemplatedSql

open Eval (Traced Tracing)

section
variable {known : Known} {n : Nat} {E : TemplateError → Prop} {env : Environment}
  {enter : Body → Address → Eval String}

/-! ### Expressions -/

mutual

theorem Expr.eval_traced (h : Tracing known n E env enter) : ∀ e : Expr, (∀ p ∈ e.places, ∀ cause, E ⟨p, cause⟩) →
    Traced known n E (Value.Among known) (e.eval env enter)
  | .literal _ l, _ => by
    rw [Expr.eval]
    exact .pure (Value.among_ofLiteral l)
  | .list _ items, hE => by
    rw [Expr.eval]
    rw [Expr.places, List.forall_mem_cons] at hE
    exact .bind (Expr.evalAll_traced h items hE.2) fun _ hvs => .pure (Value.among_list.mpr hvs)
  | .name p name, hE => by
    rw [Expr.eval]
    rw [Expr.places, List.forall_mem_singleton] at hE
    exact h.readVariable hE name
  | .member _ target name, hE => by
    rw [Expr.eval]
    rw [Expr.places, List.forall_mem_cons] at hE
    refine .bind (target.eval_traced h hE.2) fun v hv c hc => ?_
    exact .done (hv.member c.accesses name) (hc.of_eq rfl rfl)
  | .index p target index, hE => by
    rw [Expr.eval]
    rw [Expr.places, List.forall_mem_cons, List.forall_mem_append] at hE
    exact .bind (target.eval_traced h hE.2.1) fun v hv => .bind (index.eval_traced h hE.2.2) fun w _ =>
      .located hE.1 fun _ => hv.index
  | .binary p op left right, hE => by
    rw [Expr.eval]
    rw [Expr.places, List.forall_mem_cons, List.forall_mem_append] at hE
    refine .bind (left.eval_traced h hE.2.1) fun v hv => ?_
    have hright := right.eval_traced h hE.2.2
    cases op with
    | and =>
      dsimp only
      split
      · exact hright
      · exact .pure hv
    | or =>
      dsimp only
      split
      · exact .pure hv
      · exact hright
    | _ => exact .bind hright fun w hw => .located hE.1 fun _ => hv.binary hw
  | .unary p op operand, hE => by
    rw [Expr.eval]
    rw [Expr.places, List.forall_mem_cons] at hE
    refine .bind (operand.eval_traced h hE.2) fun v _ => ?_
    cases op with
    | not => exact .pure (Value.among_boolean _)
    | neg => exact .located hE.1 fun _ => Value.among_negate
  | .call p callee arguments, hE => by
    rw [Expr.eval]
    rw [Expr.places, List.forall_mem_cons, List.forall_mem_append] at hE
    refine .bind (CallArgument.evalAll_traced h arguments hE.2.2) fun as has => ?_
    refine .bind (callee.eval_traced h hE.2.1) fun v hv => ?_
    cases v with
    | function f => exact h.call hE.1 (Value.among_function.mp hv) has
    | _ => exact .fail (hE.1 _)

theorem Expr.evalAll_traced (h : Tracing known n E env enter) : ∀ es : List Expr,
    (∀ p ∈ Expr.placesOf es, ∀ cause, E ⟨p, cause⟩) →
    Traced known n E (fun vs => ∀ v ∈ vs, v.Among known) (Expr.evalAll env enter es)
  | [], _ => by
    rw [Expr.evalAll]
    exact .pure (List.forall_mem_nil _)
  | e :: es, hE => by
    rw [Expr.evalAll]
    rw [Expr.placesOf, List.forall_mem_append] at hE
    exact .bind (e.eval_traced h hE.1) fun v hv => .bind (Expr.evalAll_traced h es hE.2) fun vs hvs =>
      .pure (List.forall_mem_cons.mpr ⟨hv, hvs⟩)

theorem CallArgument.eval_traced (h : Tracing known n E env enter) : ∀ a : CallArgument,
    (∀ p ∈ a.places, ∀ cause, E ⟨p, cause⟩) →
    Traced known n E (fun a => a.value.Among known) (a.eval env enter)
  | ⟨_, e⟩, hE => by
    rw [CallArgument.eval]
    rw [CallArgument.places] at hE
    exact .bind (e.eval_traced h hE) fun v hv => .pure hv

theorem CallArgument.evalAll_traced (h : Tracing known n E env enter) : ∀ as : List CallArgument,
    (∀ p ∈ CallArgument.placesOf as, ∀ cause, E ⟨p, cause⟩) →
    Traced known n E (fun as => ∀ a ∈ as, a.value.Among known) (CallArgument.evalAll env enter as)
  | [], _ => by
    rw [CallArgument.evalAll]
    exact .pure (List.forall_mem_nil _)
  | a :: as, hE => by
    rw [CallArgument.evalAll]
    rw [CallArgument.placesOf, List.forall_mem_append] at hE
    exact .bind (a.eval_traced h hE.1) fun v hv => .bind (CallArgument.evalAll_traced h as hE.2) fun vs hvs =>
      .pure (List.forall_mem_cons.mpr ⟨hv, hvs⟩)

end

/-! ### Nodes -/

/-- What cannot be looped over is reported at the loop, or at what it loops over. -/
theorem position_of_loopRounds {p : Position} {targets : Targets} {iterable : Expr} {v : Value} {e : TemplateError}
    (h : loopRounds p targets iterable v = .error e) : e.position = p ∨ e.position = iterable.position := by
  unfold loopRounds at h
  split at h
  · split at h
    · cases h
    · obtain ⟨item, -, hitem⟩ := exists_of_mapM_error h
      split at hitem
      · cases hitem
      · cases hitem
        exact .inl rfl
  · split at h <;> cases h
  · cases h
    exact .inr rfl
  · cases h
    exact .inl rfl

mutual

theorem Node.render_traced (h : Tracing known n E env enter) (address : Address) (step : Nat) : ∀ node : Node,
    (∀ d ∈ node.macros, d ∈ known.macros) → (∀ p ∈ node.places, ∀ cause, E ⟨p, cause⟩) →
    Traced known n E (fun _ => True) (node.render env enter address step)
  | .text .., _, _ => by
    rw [Node.render]
    exact .pure trivial
  | .output _ e, _, hE => by
    rw [Node.render]
    rw [Node.places, List.forall_mem_cons] at hE
    exact .bind (e.eval_traced h hE.2) fun _ _ => .pure trivial
  | .branch _ condition body rest, hknown, hE => by
    rw [Node.render]
    rw [Node.macros, List.forall_mem_append] at hknown
    rw [Node.places, List.forall_mem_cons, List.forall_mem_append, List.forall_mem_append] at hE
    refine .bind (condition.eval_traced h hE.2.1.1) fun v _ => ?_
    dsimp only
    split
    · exact body.render_traced h _ hknown.1 hE.2.1.2
    · exact rest.render_traced h _ 1 hknown.2 hE.2.2
  | .loop p targets iterable body, hknown, hE => by
    rw [Node.render]
    rw [Node.macros] at hknown
    rw [Node.places, List.forall_mem_cons, List.forall_mem_append] at hE
    refine .bind (iterable.eval_traced h hE.2.1) fun v hv => ?_
    split
    · rename_i e he
      refine fun c hc => .failed ?_ hc
      obtain ⟨q, cause⟩ := e
      rcases position_of_loopRounds he with rfl | rfl
      · exact hE.1 cause
      · exact hE.2.1 _ iterable.position_mem_places cause
    · rename_i rounds hr
      refine .inChild h.environment (.joinAll (fun round hround => ?_) "")
      have hbindings := hv.loopRounds hr round.1 (List.fst_mem_of_mem_zipIdx hround)
      exact .bind (.update fun _ hc => hc.bindAll hbindings) fun _ _ =>
        .bind (.update fun _ hc => hc.bind (Value.among_loopInfo _ _) "loop") fun _ _ =>
          body.render_traced h _ hknown hE.2.2
  | .macroDef d, hknown, _ => by
    rw [Node.render]
    rw [Node.macros, List.forall_mem_singleton] at hknown
    exact .bind (.update fun c hc => hc.bind (Value.among_function.mpr (Function.among_defined.mpr hknown)) d.name)
      fun _ _ => .pure trivial
  | .assign _ name e, _, hE => by
    rw [Node.render]
    rw [Node.places, List.forall_mem_cons] at hE
    exact .bind (e.eval_traced h hE.2) fun v hv => .bind (.update fun _ hc => hc.bind hv name) fun _ _ =>
      .pure trivial

theorem Alternative.render_traced (h : Tracing known n E env enter) (address : Address) (arm : Nat) :
    ∀ rest : Alternative, (∀ d ∈ rest.macros, d ∈ known.macros) → (∀ p ∈ rest.places, ∀ cause, E ⟨p, cause⟩) →
    Traced known n E (fun _ => True) (rest.render env enter address arm)
  | .nothing, _, _ => by
    rw [Alternative.render]
    exact .pure trivial
  | .otherwise body, hknown, hE => by
    rw [Alternative.render]
    rw [Alternative.macros] at hknown
    rw [Alternative.places] at hE
    exact body.render_traced h _ hknown hE
  | .elseIf condition body rest, hknown, hE => by
    rw [Alternative.render]
    rw [Alternative.macros, List.forall_mem_append] at hknown
    rw [Alternative.places, List.forall_mem_append, List.forall_mem_append] at hE
    refine .bind (condition.eval_traced h hE.1.1) fun v _ => ?_
    split
    · exact body.render_traced h _ hknown.1 hE.1.2
    · exact rest.render_traced h _ _ hknown.2 hE.2

/-- A body whose macros are known renders with known macros only, and fails as its tree or a known macro does. -/
theorem Body.render_traced (h : Tracing known n E env enter) (address : Address) : ∀ body : Body,
    (∀ d ∈ body.macros, d ∈ known.macros) → (∀ p ∈ body.places, ∀ cause, E ⟨p, cause⟩) →
    Traced known n E (fun _ => True) (body.render env enter address)
  | ⟨_, nodes⟩, hknown, hE => by
    rw [Body.render]
    rw [Body.macros] at hknown
    rw [Body.places, List.forall_mem_cons] at hE
    exact Node.renderAll_traced h address 0 "" nodes hknown hE.2

theorem Node.renderAll_traced (h : Tracing known n E env enter) (address : Address) (step : Nat) (text : String) :
    ∀ nodes : List Node, (∀ d ∈ Node.macrosOf nodes, d ∈ known.macros) →
    (∀ p ∈ Node.placesOf nodes, ∀ cause, E ⟨p, cause⟩) →
    Traced known n E (fun _ => True) (Node.renderAll env enter address step text nodes)
  | [], _, _ => by
    rw [Node.renderAll]
    exact .pure trivial
  | node :: nodes, hknown, hE => by
    rw [Node.macrosOf, List.forall_mem_append] at hknown
    rw [Node.placesOf, List.forall_mem_append] at hE
    have hnode := node.render_traced h address step hknown.1 hE.1
    cases node with
    | text p more =>
      rw [Node.renderAll]
      exact Node.renderAll_traced h address step (text ++ more) nodes hknown.2 hE.2
    | _ =>
      rw [Node.renderAll]
      · exact .bind hnode fun more _ => Node.renderAll_traced h address (step + 1) (text ++ more) nodes hknown.2 hE.2
      · simp

end

end

/-- Whatever it fails with, the rendering of a body keeps to known macros. -/
theorem renderBody_traced {known : Known} {env : Environment} (henv : env.Among known) (allowance n : Nat)
    (body : Body) (address : Address) (hknown : ∀ d ∈ body.macros, d ∈ known.macros) :
    Traced known n (fun _ => True) (fun _ => True) (renderBody env allowance body address) := by
  induction allowance generalizing n body address with
  | zero => exact fun _ _ => .exhausted
  | succ allowance ih =>
    have h : Tracing known n (fun _ => True) env (renderBody env allowance) :=
      { environment := henv
        template := fun name t ht => ih n t.body _ (henv.library name t ht)
        body := fun _ d hd address => ih (n + 1) d.body address (henv.inner d hd) }
    exact body.render_traced h address hknown fun _ _ _ => trivial

/-! ### The macro that failed -/

/-- The macros that a body defines, those inside others too. -/
inductive Body.Defines (body : Body) : MacroDef → Prop
  | outer {d : MacroDef} (h : d ∈ body.macros) : Body.Defines body d
  | inner {d e : MacroDef} (h : Body.Defines body d) (he : e ∈ d.body.macros) : Body.Defines body e

/-- What is inside a macro is inside one that is inside no other. -/
theorem Body.Defines.outermost {body : Body} {d : MacroDef} (h : body.Defines d) {p : Position} (hp : p ∈ d.places) :
    ∃ d ∈ body.macros, p ∈ d.places := by
  induction h with
  | outer h => exact ⟨_, h, hp⟩
  | @inner d e _ he ih => exact ih (d.places_of_body (d.body.places_of_mem_macros e he hp))

/-- While the template is rendered in a new context, the rendering comes to the body of a macro, with a macro being
    rendered, and this body fails with the error. -/
def Body.MacroFails (env : Environment) (body : Body) (d : MacroDef) (e : TemplateError) : Prop :=
  ∃ n address c c', body.ComesTo env n (.nodes address 0 d.body.nodes) c ∧ 0 < c.depth ∧
    env.enter d.body address c = .failed e c'

section
variable {known : Known} {env : Environment} (henv : env.Among known)
include henv

/-- A body that a rendering comes to fails with an error that has its place there, or else in a known macro whose body
    failed with it. -/
theorem enter_traced {whole : Body} (n : Nat) {body : Body} (hknown : ∀ d ∈ body.macros, d ∈ known.macros)
    {address : Address} {c : Context} (hc : c.Among known n) {m : Nat}
    (hcomes : whole.ComesTo env m (.nodes address 0 body.nodes) c) :
    (env.enter body address c).Traced known n
      (fun e => e.position ∈ body.places ∨ ∃ d ∈ known.macros, e.position ∈ d.places ∧ whole.MacroFails env d e)
      (fun _ => True) := by
  classical
  -- Bodies that the rendering does not come to may be left out.
  let reached (body : Body) (address : Address) : Eval String := fun c =>
    if ∃ m, whole.ComesTo env m (.nodes address 0 body.nodes) c then env.enter body address c else .exhausted
  have hreached : Activity.Answers env reached (.nodes ⟨.given 0, []⟩ 0 whole.nodes) Context.rendering :=
    fun m _ _ _ h => if_pos ⟨m, h⟩
  rw [Environment.enter_eq (Environment.forgets_release henv.release), ← body.render_covered hreached address hcomes]
  refine body.render_traced ⟨henv, fun name t ht c hc => ?_, fun hn d hd address c hc => ?_⟩ address hknown
    (fun p hp cause => .inl hp) c hc
  · simp only [reached]
    split
    · exact renderBody_traced henv env.allowance n t.body _ (henv.library name t ht) c hc
    · exact .exhausted
  · simp only [reached]
    split
    · rename_i hcomes
      obtain ⟨m, hcomes⟩ := hcomes
      have ho := enter_traced (n + 1) (henv.inner d hd) hc hcomes
      generalize hend : env.enter d.body address c = o at ho
      cases ho with
      | done _ hd => exact .done trivial hd
      | @failed e c' he hc' =>
        refine .failed (.inr ?_) hc'
        rcases he with hplace | hinner
        · exact ⟨d, hd, d.places_of_body hplace, m, address, c, c', hcomes, hc.depth ▸ Nat.succ_pos n, hend⟩
        · exact hinner
      | exhausted => exact .exhausted
    · exact .exhausted
termination_by maxCallDepth - n

end

/-- Where the names outside the templates have no macros, and native functions keep to the macros that they get, an
    error is reported in the template that is rendered, or else in a macro of the library whose body was being rendered and
    failed with it. -/
theorem Session.place_of_error {env : Environment} (hr : env.discard = Context.release)
    (hglobals : ∀ name v, env.globals.get? name = some v → v.scopes = [])
    (hoverlay : ∀ name v, env.overlay.get? name = some v → v.scopes = [])
    (hhosts : ∀ macros, ∀ f ∈ env.hosts, f.Keeps ⟨macros, fun _ => Set.univ⟩) {body : Body} {e : TemplateError}
    {c : Context} (herror : render env body .initial = .failed e c) :
    e.position ∈ body.places ∨ ∃ name t d, env.library.get? name = some t ∧ t.body.Defines d ∧
      e.position ∈ d.places ∧ body.MacroFails env d e := by
  let known : Known :=
    ⟨{d | body.Defines d ∨ ∃ name t, env.library.get? name = some t ∧ t.body.Defines d}, fun _ => Set.univ⟩
  have hnames : ∀ key name, name ∈ known.hosts key := fun _ _ => trivial
  have henv : env.Among known :=
    { globals := fun name v h => v.among_of_scopes hnames (hglobals name v h)
      overlay := fun name v h => v.among_of_scopes hnames (hoverlay name v h)
      hosts := hhosts _
      release := hr
      library := fun name t ht d hd => .inr ⟨name, t, ht, .outer hd⟩
      inner := fun d hd e he => by
        rcases hd with hd | ⟨name, t, ht, hd⟩
        · exact .inl (.inner hd he)
        · exact .inr ⟨name, t, ht, .inner hd he⟩ }
  have hstart : Context.rendering.Among known 0 := Context.Among.initial.of_eq rfl rfl
  have ho : (env.enter body ⟨.given 0, []⟩ Context.rendering).Traced known 0 _ _ :=
    enter_traced henv 0 (fun d hd => .inl (.outer hd)) hstart .refl
  rw [show env.enter body ⟨.given 0, []⟩ Context.rendering = .failed e c from herror] at ho
  cases ho with
  | failed he _ =>
    rcases he with hplace | ⟨d, hd | ⟨name, t, ht, hd⟩, hplace, hfails⟩
    · exact .inl hplace
    · obtain ⟨outer, houter, hplace⟩ := hd.outermost hplace
      exact .inl (body.places_of_mem_macros outer houter hplace)
    · exact .inr ⟨name, t, d, ht, hd, hplace, hfails⟩

end TemplatedSql
