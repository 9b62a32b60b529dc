import TemplatedSql.Proofs.Activity
import TemplatedSql.Proofs.Except

/-! # What an evaluation comes to covers all it does

Bodies are rendered by `enter`. An evaluation asks it for nothing but the bodies that it comes to, in the contexts in
which it comes to them: with another `enter` that answers the same there the evaluation is the same. -/

namespace TemplatedSql

/-! ### Calls of macros -/

section
variable {env : Environment} {enter : Body → Address → Eval String} {definition : MacroDef} {address : Address}
  {scope : Nat} {p : Position} {arguments : List Argument} {c d : Context}

theorem MacroDef.bindArguments_ne_recursionLimit {cause : Cause} (n : Nat)
    (h : definition.bindArguments arguments = .error cause) : cause ≠ .recursionLimit n := by
  rintro rfl
  unfold MacroDef.bindArguments at h
  dsimp only at h
  split at h
  · cases h
  · rcases bind_eq_error_iff.mp h with h | ⟨values, -, h⟩
    · obtain ⟨a, -, values, ha⟩ := exists_of_foldlM_error h
      unfold MacroDef.replace at ha
      dsimp only at ha
      split at ha <;> cases ha
    · obtain ⟨a, -, ha⟩ := exists_of_mapM_error h
      unfold MacroDef.complete at ha
      split at ha
      split at ha <;> cases ha

/-- At the limit a call is refused before anything is done. -/
theorem Eval.call_of_limit_le (hdepth : maxCallDepth ≤ c.depth) :
    Eval.call env enter (.defined definition address scope) p arguments c =
      .failed ⟨p, .recursionLimit maxCallDepth⟩ c := by
  rw [Eval.call, Eval.callMacro, if_pos hdepth]

/-- Below the limit a call whose arguments fit ends as the rendering of the body does. -/
theorem Eval.call_of_lt_limit (hdepth : c.depth < maxCallDepth) {bindings : Table Value}
    (hb : definition.bindArguments arguments = .ok bindings) :
    Eval.call env enter (.defined definition address scope) p arguments c =
      match enter definition.body address (Activity.bodyContext bindings scope c) with
      | .done text d =>
        .done (.string text) { env.discard { d with current := c.current } c.arena.length with depth := c.depth }
      | .failed e d => .failed e { env.discard { d with current := c.current } c.arena.length with depth := c.depth }
      | .exhausted => .exhausted := by
  have hrendering : ((do
      Eval.update fun c => bindings.foldl (fun c b => c.bind b.1 b.2) c
      enter definition.body address : Eval String) ({ c with depth := c.depth + 1 }.opening (some scope))) =
      enter definition.body address (Activity.bodyContext bindings scope c) := rfl
  dsimp only [Context.opening] at hrendering
  unfold Eval.call Eval.callMacro
  dsimp only
  rw [if_neg (Nat.not_le_of_lt hdepth), hb]
  simp only [Eval.bind, Eval.andThen, Eval.inScope, hrendering]
  cases enter definition.body address (Activity.bodyContext bindings scope c) <;> rfl

/-- Below the limit a call is not refused, and an error that says the limit was reached comes from the body. -/
theorem Eval.call_recursionLimit (hdepth : c.depth < maxCallDepth) {q : Position} {n : Nat}
    (h : Eval.call env enter (.defined definition address scope) p arguments c = .failed ⟨q, .recursionLimit n⟩ d) :
    ∃ bindings e, definition.bindArguments arguments = .ok bindings ∧
      enter definition.body address (Activity.bodyContext bindings scope c) = .failed ⟨q, .recursionLimit n⟩ e := by
  cases hb : definition.bindArguments arguments with
  | error cause =>
    unfold Eval.call Eval.callMacro at h
    dsimp only at h
    rw [if_neg (Nat.not_le_of_lt hdepth), hb] at h
    cases h
    exact absurd rfl (MacroDef.bindArguments_ne_recursionLimit n hb)
  | ok bindings =>
    rw [Eval.call_of_lt_limit hdepth hb] at h
    cases hbody : enter definition.body address (Activity.bodyContext bindings scope c) with
    | done text e =>
      rw [hbody] at h
      cases h
    | failed error e =>
      rw [hbody] at h
      cases h
      exact ⟨bindings, e, rfl, hbody⟩
    | exhausted =>
      rw [hbody] at h
      cases h

end

/-! ### Evaluations with another `enter` -/

theorem Eval.bind_congr {α β : Type} {m m' : Eval α} {f f' : α → Eval β} {c : Context} (hm : m' c = m c)
    (hf : ∀ v d, m c = .done v d → f' v d = f v d) : (m' >>= f') c = (m >>= f) c := by
  show Eval.bind m' f' c = Eval.bind m f c
  unfold Eval.bind
  rw [hm]
  cases h : m c with
  | done v d => exact hf v d h
  | failed e d => rfl
  | exhausted => rfl

theorem Eval.andThen_congr {α : Type} {m m' : Eval α} {c : Context} (hm : m' c = m c) (f : Context → Context) :
    Eval.andThen m' f c = Eval.andThen m f c := by
  unfold Eval.andThen
  rw [hm]

theorem Eval.mapError_congr {α : Type} {m m' : Eval α} {c : Context} (hm : m' c = m c)
    (f : TemplateError → TemplateError) : Eval.mapError m' f c = Eval.mapError m f c := by
  unfold Eval.mapError
  rw [hm]

/-- `enter` answers as the evaluation does wherever that comes to a body. -/
def Activity.Answers (env : Environment) (enter : Body → Address → Eval String) (first : Activity) (start : Context) :
    Prop :=
  ∀ n body address c, Within env first start n (.nodes address 0 body.nodes) c →
    enter body address c = env.enter body address c

section
open Activity (Within Answers)
variable {env : Environment} {enter : Body → Address → Eval String} {first : Activity} {start : Context}

theorem readVariable_covered (henter : Answers env enter first start) {n : Nat} {name : String} {p : Position}
    {c : Context} (h : Within env first start n (.read name p) c) :
    Eval.readVariable env enter name p c = Eval.readVariable env env.enter name p c := by
  unfold Eval.readVariable
  cases hlookup : env.lookup c name with
  | some v => rfl
  | none =>
    cases ht : env.library.get? name with
    | none => rfl
    | some t =>
      refine Eval.bind_congr ?_ fun _ _ _ => rfl
      unfold Eval.importTemplate
      cases hi : c.imported.get? t.name with
      | some i => rfl
      | none =>
        have hbody := henter _ t.body _ _ (h.step (.imported hlookup ht hi))
        exact Eval.bind_congr (Eval.mapError_congr (Eval.andThen_congr hbody _) _) fun _ _ _ => rfl

theorem perform_covered (henter : Answers env enter first start) {p : Position} {action : Action} :
    ∀ {n : Nat} {c : Context}, Within env first start n (.perform p action) c →
      Eval.perform env enter p action c = Eval.perform env env.enter p action c := by
  induction action with
  | finish v => exact fun _ => rfl
  | fail cause => exact fun _ => rfl
  | log message next ih =>
    intro n c h
    exact Eval.bind_congr rfl fun _ d hd => by
      cases hd
      exact ih (h.step .logged)
  | read name next ih =>
    intro n c h
    exact Eval.bind_congr (readVariable_covered henter (h.step .reading)) fun v d hd => ih v (h.step (.afterReading hd))
  | bind name v next ih =>
    intro n c h
    exact Eval.bind_congr rfl fun _ d hd => by
      cases hd
      exact ih (h.step .bound)

theorem call_covered (henter : Answers env enter first start) {n : Nat} {f : Function} {p : Position}
    {arguments : List Argument} {c : Context} (h : Within env first start n (.call f p arguments) c) :
    Eval.call env enter f p arguments c = Eval.call env env.enter f p arguments c := by
  have hnative : f.isDefined = false → Eval.inChild env (Eval.perform env enter p (Eval.action env p arguments f)) c =
      Eval.inChild env (Eval.perform env env.enter p (Eval.action env p arguments f)) c :=
    fun hf => Eval.andThen_congr (perform_covered henter (h.step (.native hf))) _
  cases f with
  | defined definition address scope =>
    by_cases hdepth : c.depth < maxCallDepth
    · cases hb : definition.bindArguments arguments with
      | error cause =>
        unfold Eval.call Eval.callMacro
        dsimp only
        rw [if_neg (Nat.not_le_of_lt hdepth), if_neg (Nat.not_le_of_lt hdepth), hb]
      | ok bindings =>
        rw [Eval.call_of_lt_limit hdepth hb, Eval.call_of_lt_limit hdepth hb,
          henter _ definition.body _ _ (h.step (.entered hdepth hb))]
    · rw [Eval.call_of_limit_le (Nat.le_of_not_lt hdepth), Eval.call_of_limit_le (Nat.le_of_not_lt hdepth)]
  | _ => exact hnative rfl

mutual

theorem Expr.eval_covered (henter : Answers env enter first start) :
    ∀ (e : Expr) {n : Nat} {c : Context}, Within env first start n (.expr e) c →
    e.eval env enter c = e.eval env env.enter c
  | .literal .., _, _, _ => by
    rw [Expr.eval, Expr.eval]
  | .list _ items, _, _, h => by
    rw [Expr.eval, Expr.eval]
    exact Eval.bind_congr (Expr.evalAll_covered henter items (h.step .items)) fun _ _ _ => rfl
  | .name _ _, _, _, h => by
    rw [Expr.eval, Expr.eval]
    exact readVariable_covered henter (h.step .name)
  | .member _ target _, _, _, h => by
    rw [Expr.eval, Expr.eval]
    exact Eval.bind_congr (target.eval_covered henter (h.step .member)) fun _ _ _ => rfl
  | .index _ target index, _, _, h => by
    rw [Expr.eval, Expr.eval]
    exact Eval.bind_congr (target.eval_covered henter (h.step .indexed)) fun _ _ ht =>
      Eval.bind_congr (index.eval_covered henter (h.step (.index ht))) fun _ _ _ => rfl
  | .binary _ op left right, _, _, h => by
    rw [Expr.eval, Expr.eval]
    refine Eval.bind_congr (left.eval_covered henter (h.step .left)) fun v d hv => ?_
    have hright : (op = .and → v.truthy = true) → (op = .or → v.truthy = false) →
        right.eval env enter d = right.eval env env.enter d :=
      fun hand hor => right.eval_covered henter (h.step (.right hv hand hor))
    cases op with
    | and =>
      dsimp only
      split
      · rename_i ht
        exact hright (fun _ => ht) (fun hop => by cases hop)
      · rfl
    | or =>
      dsimp only
      split
      · rfl
      · rename_i hf
        exact hright (fun hop => by cases hop) (fun _ => Bool.not_eq_true _ ▸ hf)
    | _ =>
      exact Eval.bind_congr (hright (fun hop => by cases hop) (fun hop => by cases hop)) fun _ _ _ => rfl
  | .unary _ _ operand, _, _, h => by
    rw [Expr.eval, Expr.eval]
    exact Eval.bind_congr (operand.eval_covered henter (h.step .operand)) fun _ _ _ => rfl
  | .call p callee arguments, _, _, h => by
    rw [Expr.eval, Expr.eval]
    have hall := CallArgument.evalAll_covered henter arguments (h.step .arguments)
    refine Eval.bind_congr hall fun values d hvalues => ?_
    refine Eval.bind_congr (callee.eval_covered henter (h.step (.callee hvalues))) fun v e hv => ?_
    cases v with
    | function f => exact call_covered henter (h.step (.called hvalues hv))
    | _ => rfl

theorem Expr.evalAll_covered (henter : Answers env enter first start) :
    ∀ (es : List Expr) {n : Nat} {c : Context}, Within env first start n (.exprs es) c →
    Expr.evalAll env enter es c = Expr.evalAll env env.enter es c
  | [], _, _, _ => by
    rw [Expr.evalAll, Expr.evalAll]
  | e :: es, _, _, h => by
    rw [Expr.evalAll, Expr.evalAll]
    exact Eval.bind_congr (e.eval_covered henter (h.step .item)) fun _ _ he =>
      Eval.bind_congr (Expr.evalAll_covered henter es (h.step (.afterItem he))) fun _ _ _ => rfl

theorem CallArgument.eval_covered (henter : Answers env enter first start) :
    ∀ (a : CallArgument) {n : Nat} {c : Context},
    Within env first start n (.expr a.value) c → a.eval env enter c = a.eval env env.enter c
  | ⟨_, e⟩, _, _, h => by
    rw [CallArgument.eval, CallArgument.eval]
    exact Eval.bind_congr (e.eval_covered henter h) fun _ _ _ => rfl

theorem CallArgument.evalAll_covered (henter : Answers env enter first start) :
    ∀ (as : List CallArgument) {n : Nat} {c : Context}, Within env first start n (.arguments as) c →
      CallArgument.evalAll env enter as c = CallArgument.evalAll env env.enter as c
  | [], _, _, _ => by
    rw [CallArgument.evalAll, CallArgument.evalAll]
  | a :: as, _, _, h => by
    rw [CallArgument.evalAll, CallArgument.evalAll]
    exact Eval.bind_congr (a.eval_covered henter (h.step .argument)) fun _ _ ha =>
      Eval.bind_congr (CallArgument.evalAll_covered henter as (h.step (.afterArgument ha))) fun _ _ _ => rfl

end

/-- The rounds of a loop, of whose body it is known already. -/
theorem rounds_covered {address : Address} {body : Body} {count : Nat}
    (hbody : ∀ {n : Nat} {c : Context}, Within env first start n (.nodes address 0 body.nodes) c →
      body.render env enter address c = body.render env env.enter address c)
    (rest : List (Table Value × Nat)) : ∀ (text : String) {n : Nat} {c : Context},
    Within env first start n (.rounds address body count rest) c →
      Eval.joinAll (fun (bindings, round) => do
          Eval.update fun c => bindings.foldl (fun c b => c.bind b.1 b.2) c
          Eval.update fun c => c.bind "loop" (loopInfo round count)
          body.render env enter address) text rest c =
        Eval.joinAll (fun (bindings, round) => do
          Eval.update fun c => bindings.foldl (fun c b => c.bind b.1 b.2) c
          Eval.update fun c => c.bind "loop" (loopInfo round count)
          body.render env env.enter address) text rest c := by
  induction rest with
  | nil => exact fun _ => fun _ => rfl
  | cons r rest ih =>
    obtain ⟨bindings, round⟩ := r
    intro text n c h
    rw [Eval.joinAll_cons, Eval.joinAll_cons]
    exact Eval.bind_congr (hbody (h.step .round)) fun more d hd => ih (text ++ more) (h.step (.afterRound hd))

mutual

theorem Node.render_covered (henter : Answers env enter first start) (address : Address) (step : Nat) :
    ∀ (node : Node) {n : Nat} {c : Context}, Within env first start n (.node address step node) c →
      node.render env enter address step c = node.render env env.enter address step c
  | .text .., _, _, _ => by
    rw [Node.render, Node.render]
  | .output _ expr, _, _, h => by
    rw [Node.render, Node.render]
    exact Eval.bind_congr (expr.eval_covered henter (h.step .output)) fun _ _ _ => rfl
  | .branch _ condition body rest, _, _, h => by
    rw [Node.render, Node.render]
    refine Eval.bind_congr (condition.eval_covered henter (h.step .condition)) fun v d hv => ?_
    dsimp only
    split
    · rename_i ht
      exact body.render_covered henter _ (h.step (.body hv ht))
    · rename_i hf
      exact rest.render_covered henter _ _ (h.step (.rest hv (Bool.not_eq_true _ ▸ hf)))
  | .loop p targets iterable body, _, _, h => by
    rw [Node.render, Node.render]
    refine Eval.bind_congr (iterable.eval_covered henter (h.step .iterable)) fun v d hv => ?_
    cases hr : loopRounds p targets iterable v with
    | error e => rfl
    | ok rounds =>
      exact Eval.andThen_congr (rounds_covered (body.render_covered henter _) _ "" (h.step (.rounds hv hr))) _
  | .macroDef _, _, _, _ => by
    rw [Node.render, Node.render]
  | .assign _ _ value, _, _, h => by
    rw [Node.render, Node.render]
    exact Eval.bind_congr (value.eval_covered henter (h.step .assigned)) fun _ _ _ => rfl

theorem Alternative.render_covered (henter : Answers env enter first start) (address : Address) (arm : Nat) :
    ∀ (rest : Alternative) {n : Nat} {c : Context}, Within env first start n (.alternative address arm rest) c →
      rest.render env enter address arm c = rest.render env env.enter address arm c
  | .nothing, _, _, _ => by
    rw [Alternative.render, Alternative.render]
  | .otherwise body, _, _, h => by
    rw [Alternative.render, Alternative.render]
    exact body.render_covered henter _ (h.step .otherwise)
  | .elseIf condition body rest, _, _, h => by
    rw [Alternative.render, Alternative.render]
    refine Eval.bind_congr (condition.eval_covered henter (h.step .elseCondition)) fun v d hv => ?_
    split
    · rename_i ht
      exact body.render_covered henter _ (h.step (.elseBody hv ht))
    · rename_i hf
      exact rest.render_covered henter _ _ (h.step (.elseRest hv (Bool.not_eq_true _ ▸ hf)))

/-- The rendering of a body depends on `enter` at the bodies only that the rendering comes to. -/
theorem Body.render_covered (henter : Answers env enter first start) (address : Address) :
    ∀ (body : Body) {n : Nat} {c : Context}, Within env first start n (.nodes address 0 body.nodes) c →
      body.render env enter address c = body.render env env.enter address c
  | ⟨_, nodes⟩, _, _, h => by
    rw [Body.render, Body.render]
    exact Node.renderAll_covered henter address 0 "" nodes h

theorem Node.renderAll_covered (henter : Answers env enter first start) (address : Address) (step : Nat)
    (text : String) : ∀ (nodes : List Node) {n : Nat} {c : Context},
    Within env first start n (.nodes address step nodes) c →
      Node.renderAll env enter address step text nodes c = Node.renderAll env env.enter address step text nodes c
  | [], _, _, _ => by
    rw [Node.renderAll, Node.renderAll]
  | node :: nodes, _, _, h => by
    have hnode := node.render_covered henter address step (h.step .node)
    cases node with
    | text p more =>
      rw [Node.renderAll, Node.renderAll]
      exact Node.renderAll_covered henter address step (text ++ more) nodes (h.step .afterText)
    | _ =>
      rw [Node.renderAll, Node.renderAll]
      · refine Eval.bind_congr hnode fun more d hd => ?_
        exact Node.renderAll_covered henter address (step + 1) (text ++ more) nodes (h.step (.afterNode (by simp) hd))
      · simp
      · simp

end

end

end TemplatedSql
