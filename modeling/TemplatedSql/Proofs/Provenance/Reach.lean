import TemplatedSql.Proofs.Provenance.Render
import TemplatedSql.Proofs.Session

/-! # Known functions all along

Where an evaluation starts with known functions, all that it comes to on the way has known ones only: the contexts, the
functions that are called with their arguments, and what native functions do. So it is at every moment of a session that
hands nothing else over. All macros are known here where trees are rendered, so that nothing is asked of the trees. -/

namespace TemplatedSql

/-! ### Within an evaluation -/

theorem Eval.Traced.after {α : Type} {known : Known} {n : Nat} {E : TemplateError → Prop} {P : α → Prop} {m : Eval α}
    {c d : Context} {v : α} (h : m.Traced known n E P) (hc : c.Among known n) (hd : m c = .done v d) :
    P v ∧ d.Among known n := by
  have ho := h c hc
  rw [hd] at ho
  cases ho with
  | done hv hd => exact ⟨hv, hd⟩

theorem enter_tracing {known : Known} {env : Environment} (henv : env.Among known) (n : Nat) :
    Eval.Tracing known n (fun _ => True) env env.enter where
  environment := henv
  template name t ht := renderBody_traced henv env.allowance n t.body _ (henv.library name t ht)
  body _ d hd address := renderBody_traced henv env.allowance (n + 1) d.body address (henv.inner d hd)

section
variable {known : Known} {env : Environment} {n : Nat} {c d : Context} (henv : env.Among known) (hc : c.Among known n)
include henv hc

theorem Expr.eval_among {e : Expr} {v : Value} (h : e.eval env env.enter c = .done v d) :
    v.Among known ∧ d.Among known n :=
  (e.eval_traced (enter_tracing henv n) fun _ _ _ => trivial).after hc h

theorem CallArgument.eval_among {a : CallArgument} {v : Argument} (h : a.eval env env.enter c = .done v d) :
    v.value.Among known ∧ d.Among known n :=
  (a.eval_traced (enter_tracing henv n) fun _ _ _ => trivial).after hc h

theorem CallArgument.evalAll_among {as : List CallArgument} {vs : List Argument}
    (h : CallArgument.evalAll env env.enter as c = .done vs d) : (∀ a ∈ vs, a.value.Among known) ∧ d.Among known n :=
  (CallArgument.evalAll_traced (enter_tracing henv n) as fun _ _ _ => trivial).after hc h

variable (hmacros : ∀ d, d ∈ known.macros)
include hmacros

theorem Node.render_among {node : Node} {address : Address} {step : Nat} {text : String}
    (h : node.render env env.enter address step c = .done text d) : d.Among known n :=
  ((node.render_traced (enter_tracing henv n) address step (fun d _ => hmacros d) fun _ _ _ => trivial).after hc h).2

theorem Body.render_among {body : Body} {address : Address} {text : String}
    (h : body.render env env.enter address c = .done text d) : d.Among known n :=
  ((body.render_traced (enter_tracing henv n) address (fun d _ => hmacros d) fun _ _ _ => trivial).after hc h).2

end

namespace Activity

/-- The functions and values of an activity are known, or hold only known functions. -/
def Among (known : Known) : Activity → Prop
  | .rounds _ _ _ rest => ∀ r ∈ rest, ∀ b ∈ r.1, b.2.Among known
  | .call f _ as => f.Among known ∧ ∀ a ∈ as, a.value.Among known
  | .perform _ action => action.Among known
  | _ => True

theorem among_roundContext {known : Known} {n : Nat} {c : Context} (hc : c.Among known n) {bindings : Table Value}
    (hbindings : ∀ b ∈ bindings, b.2.Among known) (round count : Nat) :
    (roundContext bindings round count c).Among known n :=
  (hc.bindAll hbindings).bind (Value.among_loopInfo round count) "loop"

section
variable {known : Known} {env : Environment} {n k : Nat} {a b : Activity} {c d : Context}
  (hmacros : ∀ d, d ∈ known.macros) (henv : env.Among known)
include hmacros henv

/-- What an evaluation comes to next has known functions again. -/
theorem Starts.among (ha : a.Among known) (hc : c.Among known n) (hs : Starts env a c k b d) :
    b.Among known ∧ d.Among known (n + k) := by
  cases hs with
  | node | afterText | output | condition | otherwise | elseCondition | iterable | assigned | items | name | member
  | indexed | left | operand | arguments | item | argument | reading => exact ⟨trivial, hc⟩
  | afterNode _ h => exact ⟨trivial, Node.render_among henv hc hmacros h⟩
  | body h _ | rest h _ | elseBody h _ | elseRest h _ | index h | right h _ _ | afterItem h =>
    exact ⟨trivial, (Expr.eval_among henv hc h).2⟩
  | rounds h hr =>
    obtain ⟨hv, hd⟩ := Expr.eval_among henv hc h
    exact ⟨fun r hmem => hv.loopRounds hr r.1 (List.fst_mem_of_mem_zipIdx hmem), hd.opening _⟩
  | round => exact ⟨trivial, among_roundContext hc (ha _ List.mem_cons_self) _ _⟩
  | afterRound h =>
    obtain ⟨hround, hrest⟩ := List.forall_mem_cons.mp ha
    exact ⟨hrest, Body.render_among henv (among_roundContext hc hround _ _) hmacros h⟩
  | callee h => exact ⟨trivial, (CallArgument.evalAll_among henv hc h).2⟩
  | called h hcall =>
    obtain ⟨hvalues, hd⟩ := CallArgument.evalAll_among henv hc h
    obtain ⟨hf, he⟩ := Expr.eval_among henv hd hcall
    exact ⟨⟨Value.among_function.mp hf, hvalues⟩, he⟩
  | afterArgument h => exact ⟨trivial, (CallArgument.eval_among henv hc h).2⟩
  | imported => exact ⟨trivial, (hc.opening none).of_eq rfl rfl⟩
  | entered hdepth hb =>
    exact ⟨trivial, (hc.deeper.opening _).bindAll (MacroDef.among_of_bindArguments ha.2 hb)⟩
  | native => exact ⟨Eval.action_among henv.hosts _ ha.2 ha.1, hc.opening _⟩
  | logged =>
    cases ha with
    | log _ hnext => exact ⟨hnext, hc.of_eq rfl rfl⟩
  | afterReading h =>
    cases ha with
    | read _ hnext =>
      obtain ⟨hv, hd⟩ := ((enter_tracing henv n).readVariable (fun _ => trivial) _).after hc h
      exact ⟨hnext _ hv, hd⟩
  | bound =>
    cases ha with
    | bind _ hv hnext => exact ⟨hnext, hc.bind hv _⟩

theorem Within.among (ha : a.Among known) (hc : c.Among known 0) (h : Within env a c n b d) :
    b.Among known ∧ d.Among known n := by
  induction h with
  | refl => exact ⟨ha, hc⟩
  | step _ hs ih => exact Starts.among hmacros henv ih.1 ih.2 hs

end

/-- An activity that ends with a value. -/
inductive Gives (env : Environment) (c : Context) (v : Value) : Activity → Prop
  | expr {e d} (h : e.eval env env.enter c = .done v d) : Gives env c v (.expr e)
  | read {name p d} (h : Eval.readVariable env env.enter name p c = .done v d) : Gives env c v (.read name p)
  | call {f p as d} (h : Eval.call env env.enter f p as c = .done v d) : Gives env c v (.call f p as)

theorem Gives.among {known : Known} {env : Environment} {n : Nat} {a : Activity} {c : Context} {v : Value}
    (h : a.Gives env c v) (henv : env.Among known) (ha : a.Among known) (hc : c.Among known n) : v.Among known := by
  cases h with
  | expr h => exact (Expr.eval_among henv hc h).1
  | read h => exact (((enter_tracing henv n).readVariable (fun _ => trivial) _).after hc h).1
  | call h => exact (((enter_tracing henv n).call (fun _ => trivial) ha.1 ha.2).after hc h).1

end Activity

/-! ### Sessions -/

namespace Session

/-- The values that an operation hands over hold only known functions, and the macros that it renders are known. -/
inductive Op.Among (known : Known) : Op → Prop
  | render {body : Body} (h : ∀ d ∈ body.macros, d ∈ known.macros) : Op.Among known (.render body)
  | renderAgain {body : Body} (serial : Nat) (h : ∀ d ∈ body.macros, d ∈ known.macros) :
    Op.Among known (.renderAgain serial body)
  | get (name : String) (p : Position) : Op.Among known (.get name p)
  | lookup (name : String) : Op.Among known (.lookup name)
  | set {v : Value} (name : String) (h : v.Among known) : Op.Among known (.set name v)
  | call {f : Function} {arguments : List Argument} (p : Position) (hf : f.Among known)
    (h : ∀ a ∈ arguments, a.value.Among known) : Op.Among known (.call f p arguments)
  | inside {ops : List Op} (error : Option TemplateError) (h : ∀ op ∈ ops, Op.Among known op) :
    Op.Among known (.scoped ops error)

section
variable {known : Known} {n : Nat} {env : Environment} {α : Type} {P : α → Prop}

theorem await_traced {m : Eval α} (h : m.Traced known n (fun _ => True) P) :
    (await m).Traced known n (fun _ => True) fun _ => True := by
  intro c hc
  have ho := h c hc
  unfold await
  generalize m c = o at ho
  cases ho with
  | done _ hd => exact .done trivial hd
  | failed _ hd => exact .done trivial hd
  | exhausted => exact .exhausted

mutual

theorem Op.run_traced (henv : env.Among known) : ∀ op : Op, op.Among known →
    (op.run env).Traced known n (fun _ => True) fun _ => True
  | .render body, h => by
    rw [Op.run]
    cases h with
    | render h =>
      refine await_traced (P := fun _ => True) fun c hc => ?_
      exact renderBody_traced henv env.allowance n body ⟨.given c.given, []⟩ h _ (hc.of_eq rfl rfl)
  | .renderAgain serial body, h => by
    rw [Op.run]
    cases h with
    | renderAgain _ h => exact await_traced (renderBody_traced henv env.allowance n body ⟨.given serial, []⟩ h)
  | .get name p, _ => by
    rw [Op.run]
    exact await_traced ((enter_tracing henv n).readVariable (fun _ => trivial) name)
  | .lookup name, _ => by
    rw [Op.run]
    exact fun c hc => .done trivial hc
  | .set name v, h => by
    rw [Op.run]
    cases h with
    | set _ hv => exact .update fun c hc => hc.bind hv name
  | .call f p arguments, h => by
    rw [Op.run]
    cases h with
    | call _ hf has => exact await_traced ((enter_tracing henv n).call (fun _ => trivial) hf has)
  | .scoped ops error, h => by
    rw [Op.run]
    cases h with
    | inside _ h =>
      refine .inChild henv (.bind (Op.runAll_traced henv ops h) fun _ _ => ?_)
      cases error with
      | none => exact .pure trivial
      | some e => exact fun c hc => .failed trivial hc

theorem Op.runAll_traced (henv : env.Among known) : ∀ ops : List Op, (∀ op ∈ ops, op.Among known) →
    (Op.runAll env ops).Traced known n (fun _ => True) fun _ => True
  | [], _ => by
    rw [Op.runAll]
    exact .pure trivial
  | op :: ops, h => by
    rw [Op.runAll]
    rw [List.forall_mem_cons] at h
    exact .bind (await_traced (op.run_traced henv h.1)) fun _ _ => Op.runAll_traced henv ops h.2

end

/-- What is known stays so from one operation to the next, for what is still to be done too. -/
theorem Reaches.among (henv : env.Among known) {ops rest : List Op} {c d : Context} (h : Reaches env ops c rest d)
    (hops : ∀ op ∈ ops, op.Among known) (hc : c.Among known n) : (∀ op ∈ rest, op.Among known) ∧ d.Among known n := by
  induction h with
  | here => exact ⟨hops, hc⟩
  | @next op ops c d rest e hrun more ih =>
    rw [List.forall_mem_cons] at hops
    have ho := op.run_traced henv hops.1 c hc
    refine ih hops.2 ?_
    generalize op.run env c = o at ho hrun
    cases ho with
    | done _ hd | failed _ hd =>
      cases hrun
      exact hd
    | exhausted => cases hrun
  | inside more ih =>
    cases (List.forall_mem_cons.mp hops).1 with
    | inside _ h => exact ih h (hc.opening _)

/-- What an operation does first, and in which context. -/
inductive Op.Starts (c : Context) : Op → Activity → Context → Prop
  | render {body} :
    Op.Starts c (.render body) (.nodes ⟨.given c.given, []⟩ 0 body.nodes) { c with given := c.given + 1 }
  | renderAgain {serial body} : Op.Starts c (.renderAgain serial body) (.nodes ⟨.given serial, []⟩ 0 body.nodes) c
  | get {name p} : Op.Starts c (.get name p) (.read name p) c
  | call {f p as} : Op.Starts c (.call f p as) (.call f p as) c

theorem Op.Starts.among {op : Op} {a : Activity} {c d : Context} (h : op.Starts c a d) (hop : op.Among known)
    (hc : c.Among known n) : a.Among known ∧ d.Among known n := by
  cases h with
  | render => exact ⟨trivial, hc.of_eq rfl rfl⟩
  | renderAgain | get => exact ⟨trivial, hc⟩
  | call =>
    cases hop with
    | call _ hf has => exact ⟨⟨hf, has⟩, hc⟩

end

end Session

end TemplatedSql
