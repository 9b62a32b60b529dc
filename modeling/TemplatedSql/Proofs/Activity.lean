import TemplatedSql.Proofs.Allowance
import TemplatedSql.Proofs.Release

/-! # What goes on inside an evaluation

An evaluation consists of others: a node renders its expressions and bodies, a name may import a template, a call
renders the body of a macro. `Starts` says which evaluation comes to be done while another one is, and from which
context; `Within` follows such steps and counts the bodies of macros that are entered on the way, which are those
being rendered inside one another.

Wherever an evaluation comes to from a new context, this number is the depth of the context and not above the limit,
and every walk outward along the scopes ends. -/

namespace TemplatedSql

/-- What is being evaluated. -/
inductive Activity
  | nodes (address : Address) (step : Nat) (nodes : List Node)
  | node (address : Address) (step : Nat) (node : Node)
  | alternative (address : Address) (arm : Nat) (rest : Alternative)
  /-- The remaining rounds of a loop with `count` rounds. -/
  | rounds (address : Address) (body : Body) (count : Nat) (rest : List (Table Value × Nat))
  | expr (e : Expr)
  | exprs (es : List Expr)
  | arguments (as : List CallArgument)
  | read (name : String) (p : Position)
  | call (f : Function) (p : Position) (arguments : List Argument)
  | perform (p : Position) (action : Action)

namespace Activity

/-- The context in which the body of a loop is rendered once more. -/
def roundContext (bindings : Table Value) (round count : Nat) (c : Context) : Context :=
  (bindings.foldl (fun c b => c.bind b.1 b.2) c).bind "loop" (loopInfo round count)

/-- The context in which the body of a macro that was defined in `scope` is rendered. -/
def bodyContext (bindings : Table Value) (scope : Nat) (c : Context) : Context :=
  bindings.foldl (fun c b => c.bind b.1 b.2) ({ c with depth := c.depth + 1 }.opening (some scope))

/-- While it does the first activity from a context, an evaluation comes to do the second one from another context.
    The number between them says how many bodies of macros it enters for that. -/
inductive Starts (env : Environment) : Activity → Context → Nat → Activity → Context → Prop
  | node {address step node nodes c} :
    Starts env (.nodes address step (node :: nodes)) c 0 (.node address step node) c
  | afterText {address step p text nodes c} :
    Starts env (.nodes address step (.text p text :: nodes)) c 0 (.nodes address step nodes) c
  | afterNode {address step node nodes text c d} (htag : ∀ p text, node ≠ .text p text)
    (h : node.render env env.enter address step c = .done text d) :
    Starts env (.nodes address step (node :: nodes)) c 0 (.nodes address (step + 1) nodes) d
  | output {address step p e c} : Starts env (.node address step (.output p e)) c 0 (.expr e) c
  | condition {address step p e body rest c} :
    Starts env (.node address step (.branch p e body rest)) c 0 (.expr e) c
  | body {address step p e body rest v c d} (h : e.eval env env.enter c = .done v d) (hv : v.truthy = true) :
    Starts env (.node address step (.branch p e body rest)) c 0
      (.nodes ⟨address.origin, 0 :: step :: address.path⟩ 0 body.nodes) d
  | rest {address step p e body rest v c d} (h : e.eval env env.enter c = .done v d) (hv : v.truthy = false) :
    Starts env (.node address step (.branch p e body rest)) c 0
      (.alternative ⟨address.origin, step :: address.path⟩ 1 rest) d
  | otherwise {address arm body c} : Starts env (.alternative address arm (.otherwise body)) c 0
      (.nodes ⟨address.origin, arm :: address.path⟩ 0 body.nodes) c
  | elseCondition {address arm e body rest c} :
    Starts env (.alternative address arm (.elseIf e body rest)) c 0 (.expr e) c
  | elseBody {address arm e body rest v c d} (h : e.eval env env.enter c = .done v d) (hv : v.truthy = true) :
    Starts env (.alternative address arm (.elseIf e body rest)) c 0
      (.nodes ⟨address.origin, arm :: address.path⟩ 0 body.nodes) d
  | elseRest {address arm e body rest v c d} (h : e.eval env env.enter c = .done v d) (hv : v.truthy = false) :
    Starts env (.alternative address arm (.elseIf e body rest)) c 0 (.alternative address (arm + 1) rest) d
  | iterable {address step p targets e body c} :
    Starts env (.node address step (.loop p targets e body)) c 0 (.expr e) c
  | rounds {address step p targets e body v rounds c d} (h : e.eval env env.enter c = .done v d)
    (hr : loopRounds p targets e v = .ok rounds) : Starts env (.node address step (.loop p targets e body)) c 0
      (.rounds ⟨address.origin, step :: address.path⟩ body rounds.length rounds.zipIdx) (d.opening (some d.current))
  | round {address body count bindings round rest c} :
    Starts env (.rounds address body count ((bindings, round) :: rest)) c 0 (.nodes address 0 body.nodes)
      (roundContext bindings round count c)
  | afterRound {address body count bindings round rest text c d}
    (h : body.render env env.enter address (roundContext bindings round count c) = .done text d) :
    Starts env (.rounds address body count ((bindings, round) :: rest)) c 0 (.rounds address body count rest) d
  | assigned {address step p name e c} : Starts env (.node address step (.assign p name e)) c 0 (.expr e) c
  | items {p items c} : Starts env (.expr (.list p items)) c 0 (.exprs items) c
  | name {p name c} : Starts env (.expr (.name p name)) c 0 (.read name p) c
  | member {p target name c} : Starts env (.expr (.member p target name)) c 0 (.expr target) c
  | indexed {p target index c} : Starts env (.expr (.index p target index)) c 0 (.expr target) c
  | index {p target index v c d} (h : target.eval env env.enter c = .done v d) :
    Starts env (.expr (.index p target index)) c 0 (.expr index) d
  | left {p op left right c} : Starts env (.expr (.binary p op left right)) c 0 (.expr left) c
  | right {p op left right v c d} (h : left.eval env env.enter c = .done v d) (hand : op = .and → v.truthy = true)
    (hor : op = .or → v.truthy = false) : Starts env (.expr (.binary p op left right)) c 0 (.expr right) d
  | operand {p op operand c} : Starts env (.expr (.unary p op operand)) c 0 (.expr operand) c
  | arguments {p callee arguments c} : Starts env (.expr (.call p callee arguments)) c 0 (.arguments arguments) c
  | callee {p callee arguments values c d} (h : CallArgument.evalAll env env.enter arguments c = .done values d) :
    Starts env (.expr (.call p callee arguments)) c 0 (.expr callee) d
  | called {p callee arguments values f c d e} (h : CallArgument.evalAll env env.enter arguments c = .done values d)
    (hf : callee.eval env env.enter d = .done (.function f) e) :
    Starts env (.expr (.call p callee arguments)) c 0 (.call f p values) e
  | item {e es c} : Starts env (.exprs (e :: es)) c 0 (.expr e) c
  | afterItem {e es v c d} (h : e.eval env env.enter c = .done v d) : Starts env (.exprs (e :: es)) c 0 (.exprs es) d
  | argument {a as c} : Starts env (.arguments (a :: as)) c 0 (.expr a.value) c
  | afterArgument {a as v c d} (h : a.eval env env.enter c = .done v d) :
    Starts env (.arguments (a :: as)) c 0 (.arguments as) d
  | imported {name p t c} (hlookup : env.lookup c name = none) (ht : env.library.get? name = some t)
    (hi : c.imported.get? t.name = none) :
    Starts env (.read name p) c 0 (.nodes ⟨.library t.name, []⟩ 0 t.body.nodes) (c.importing t.name)
  | entered {definition address scope p arguments bindings c} (hdepth : c.depth < maxCallDepth)
    (hb : MacroDef.bindArguments definition arguments = .ok bindings) :
    Starts env (.call (.defined definition address scope) p arguments) c 1
      (.nodes address 0 definition.body.nodes) (bodyContext bindings scope c)
  | native {f p arguments c} (hf : f.isDefined = false) : Starts env (.call f p arguments) c 0
      (.perform p (Eval.action env p arguments f)) (c.opening (some c.current))
  | logged {p message next c} : Starts env (.perform p (.log message next)) c 0 (.perform p next)
      { c with logs := c.logs.push (p, message) }
  | reading {p name next c} : Starts env (.perform p (.read name next)) c 0 (.read name p) c
  | afterReading {p name next v c d} (h : Eval.readVariable env env.enter name p c = .done v d) :
    Starts env (.perform p (.read name next)) c 0 (.perform p (next v)) d
  | bound {p name v next c} : Starts env (.perform p (.bind name v next)) c 0 (.perform p next) (c.bind name v)

/-- While it does `first` from `start`, an evaluation comes to an activity in a context, with so many bodies of
    macros entered on the way. -/
inductive Within (env : Environment) (first : Activity) (start : Context) : Nat → Activity → Context → Prop
  | refl : Within env first start 0 first start
  | step {n k a b c d} (h : Within env first start n a c) (hs : Starts env a c k b d) :
    Within env first start (n + k) b d

/-! ### What holds all along -/

/-- The scopes that a value in sight may remember. -/
def sight (w : View) (c : Context) : Nat → Nat → Prop :=
  w.frames ⊔ scopesRenumbered.lasting c c

/-- The functions, values and scopes of an activity are in sight. The scope of a native call needs not be: no value
    remembers it. -/
def InSight (w : View) (c : Context) : Activity → Prop
  | .read .. => True
  | .perform _ action => Action.Alike .scopes Eq (sight w c) action action
  | .call f _ values => sight w c w.left w.right ∧ f.Alike (sight w c) Eq f ∧
      List.Forall₂ (Argument.Alike (sight w c) Eq) values values
  | .rounds _ _ _ rest => sight w c w.left w.right ∧
      ∀ r ∈ rest, List.Forall₂ (Value.EntryAlike (sight w c) Eq) r.1 r.1
  | _ => sight w c w.left w.right

/-- What holds where an evaluation comes to an activity with `n` bodies of macros entered. -/
structure Sound (n : Nat) (a : Activity) (c : Context) : Prop where
  depth : c.depth = n
  limit : n ≤ maxCallDepth
  view : ∃ w, RelatedAt scopesRenumbered w c c ∧ a.InSight w c

section
variable {env : Environment} {w : View} {c d : Context} {n : Nat} {α : Type} {v : α}
  {R : (Nat → Nat → Prop) → α → α → Prop} {m : Eval α}

/-- What is known of a context and a value after an evaluation that was in step with itself. -/
theorem after (hw : RelatedAt scopesRenumbered w c c)
    (hm : Eval.Alike scopesRenumbered w (scopesRenumbered.lasting c c) R m m) (hd : m c = .done v d) :
    RelatedAt scopesRenumbered w d d ∧ sight w c ≤ sight w d ∧ R (scopesRenumbered.lasting d d) v v := by
  have h := hm c c hw le_rfl
  rw [hd] at h
  cases h with
  | done hd hv => exact ⟨hd.1, sup_le_sup_left hd.2 _, hv⟩

theorem depth_after {names : Set String} (hm : m.Keeps env n names) (hd : m c = .done v d) : d.depth = c.depth :=
  (hm.frame (by rw [hd]; rfl)).depth

theorem depth_bindAll (bindings : Table Value) (c : Context) :
    (bindings.foldl (fun c b => c.bind b.1 b.2) c).depth = c.depth := by
  have hframe : Frame {} Set.univ c (bindings.foldl (fun c b => c.bind b.1 b.2) c) :=
    Frame.bindAll (fun _ _ => Set.mem_univ _) c
  exact hframe.depth

end

section
variable {env : Environment} (hf : env.Forgets) (henv : env.Alike .scopes Eq env)
include henv

theorem enters_in_step :
    Eval.EntersInStep scopesRenumbered env env env.allowance env.allowance env.enter env.enter where
  alike := renderBody_alike (k := scopesRenumbered) henv env.allowance
  environment := henv
  keeps := env.enter_keeps henv.forgets
  keeps' := env.enter_keeps henv.forgets

variable {w : View} {c d : Context} (hc : RelatedAt scopesRenumbered w c c) (hw : sight w c w.left w.right)
include hf hc hw

theorem eval_sound {e : Expr} {v : Value} (hd : e.eval env env.enter c = .done v d) :
    d.depth = c.depth ∧ RelatedAt scopesRenumbered w d d ∧ sight w c ≤ sight w d ∧ v.Alike (sight w d) Eq v :=
  ⟨depth_after (e.eval_keeps (env.enter_keeps hf) hf) hd,
    after hc (e.eval_alike (enters_in_step henv) hw) hd⟩

theorem evalAll_sound {as : List CallArgument} {values : List Argument}
    (hd : CallArgument.evalAll env env.enter as c = .done values d) :
    d.depth = c.depth ∧ RelatedAt scopesRenumbered w d d ∧ sight w c ≤ sight w d ∧
      List.Forall₂ (Argument.Alike (sight w d) Eq) values values :=
  ⟨depth_after (CallArgument.evalAll_keeps (env.enter_keeps hf) hf as) hd, after hc
    (CallArgument.evalAll_alike (enters_in_step henv) as hw) hd⟩

theorem render_sound {node : Node} {address : Address} {step : Nat} {text : String}
    (hd : node.render env env.enter address step c = .done text d) :
    d.depth = c.depth ∧ RelatedAt scopesRenumbered w d d ∧ sight w c ≤ sight w d := by
  obtain ⟨hrel, hle, -⟩ := after hc (node.render_alike (enters_in_step henv) address step hw) hd
  exact ⟨depth_after (node.render_keeps (env.enter_keeps hf) hf address step) hd, hrel, hle⟩

theorem renderBody_sound {body : Body} {address : Address} {text : String}
    (hd : body.render env env.enter address c = .done text d) :
    d.depth = c.depth ∧ RelatedAt scopesRenumbered w d d ∧ sight w c ≤ sight w d := by
  obtain ⟨hrel, hle, -⟩ := after hc (body.render_alike (enters_in_step henv) address hw) hd
  exact ⟨depth_after (body.render_keeps (env.enter_keeps hf) hf address) hd, hrel, hle⟩

end

theorem current_in_sight {w : View} {c : Context} (hc : RelatedAt scopesRenumbered w c c)
    (hw : sight w c w.left w.right) : sight w c c.current c.current := by
  have hcurrent := hw
  rw [← hc.left, ← hc.right] at hcurrent
  exact hcurrent

theorem bindAll_sound {w : View} {c : Context} {bindings : Table Value} (hc : RelatedAt scopesRenumbered w c c)
    (h : List.Forall₂ (Value.EntryAlike (sight w c) Eq) bindings bindings) :
    RelatedAt scopesRenumbered w (bindings.foldl (fun c b => c.bind b.1 b.2) c)
        (bindings.foldl (fun c b => c.bind b.1 b.2) c) ∧
      sight w c ≤ sight w (bindings.foldl (fun c b => c.bind b.1 b.2) c) := by
  have hframe : Frame {} Set.univ c (bindings.foldl (fun c b => c.bind b.1 b.2) c) :=
    Frame.bindAll (fun _ _ => Set.mem_univ _) c
  exact ⟨hc.bindAll h, sup_le_sup_left (lasting_le hframe hframe) _⟩

namespace Sound
variable {env : Environment} {n k : Nat} {a b : Activity} {c d : Context}

/-- What an evaluation comes to next is in order again, and a body of a macro is only entered below the limit. -/
theorem step (hf : env.Forgets) (henv : env.Alike .scopes Eq env) (h : Sound n a c) (hs : Starts env a c k b d) :
    Sound (n + k) b d := by
  obtain ⟨hdepth, hlimit, w, hc, hin⟩ := h
  cases hs with
  | node | afterText | output | condition | otherwise | elseCondition | iterable | assigned | items | member | indexed
  | left | operand | arguments | item | argument => exact ⟨hdepth, hlimit, w, hc, hin⟩
  | name => exact ⟨hdepth, hlimit, w, hc, trivial⟩
  | afterNode htag h =>
    obtain ⟨hd, hrel, hle⟩ := render_sound hf henv hc hin h
    exact ⟨hd.trans hdepth, hlimit, w, hrel, hle _ _ hin⟩
  | body h _ | rest h _ | elseBody h _ | elseRest h _ | index h | right h _ _ | afterItem h =>
    obtain ⟨hd, hrel, hle, -⟩ := eval_sound hf henv hc hin h
    exact ⟨hd.trans hdepth, hlimit, w, hrel, hle _ _ hin⟩
  | @rounds address step p targets e body v rounds c d h hr =>
    obtain ⟨hd, hrel, hle, hv⟩ := eval_sound hf henv hc hin h
    have hblock := hrel.toRelated.block (current_in_sight hrel (hle _ _ hin))
    have hrounds := loopRounds_alike p targets e hv
    rw [hr] at hrounds
    cases hrounds with
    | ok hrounds =>
      refine ⟨hd.trans hdepth, hlimit, _, hblock, Or.inl (Or.inr ⟨rfl, rfl⟩), fun r hmem => ?_⟩
      have hround := (List.forall₂_same.mp hrounds) r.1 (List.fst_mem_of_mem_zipIdx hmem)
      exact Value.entriesAlike_mono (sup_le_sup_right le_sup_left _) _ hround
  | @round address body count bindings round rest c =>
    obtain ⟨hw, hrest⟩ := hin
    obtain ⟨hrel, hle⟩ := bindAll_sound hc (hrest _ List.mem_cons_self)
    exact ⟨(depth_bindAll bindings c).trans hdepth, hlimit, w, hrel.bind (loopInfo_alike _ _) "loop", hle _ _ hw⟩
  | @afterRound address body count bindings round rest text c d h =>
    obtain ⟨hw, hrest⟩ := hin
    obtain ⟨hrel, hle⟩ := bindAll_sound hc (hrest _ List.mem_cons_self)
    obtain ⟨hd, hrel, hle'⟩ := renderBody_sound hf henv (hrel.bind (loopInfo_alike round count) "loop") (hle _ _ hw) h
    refine ⟨hd.trans ((depth_bindAll bindings c).trans hdepth), hlimit, w, hrel, hle' _ _ (hle _ _ hw), fun r hr => ?_⟩
    exact Value.entriesAlike_mono (hle.trans hle') _ (hrest r (List.mem_cons_of_mem _ hr))
  | callee h =>
    obtain ⟨hd, hrel, hle, -⟩ := evalAll_sound hf henv hc hin h
    exact ⟨hd.trans hdepth, hlimit, w, hrel, hle _ _ hin⟩
  | called h hcall =>
    obtain ⟨hd, hrel, hle, hvalues⟩ := evalAll_sound hf henv hc hin h
    obtain ⟨he, hrel, hle', hfunction⟩ := eval_sound hf henv hrel (hle _ _ hin) hcall
    cases hfunction with
    | function hfunction =>
      exact ⟨he.trans (hd.trans hdepth), hlimit, w, hrel, hle' _ _ (hle _ _ hin), hfunction,
        Argument.allAlike_mono hle' hvalues⟩
  | @afterArgument a as v c d h =>
    obtain ⟨hrel, hle, -⟩ := after hc (a.eval_alike (enters_in_step henv) hin) h
    exact ⟨(depth_after (a.eval_keeps (env.enter_keeps hf) hf) h).trans hdepth, hlimit, w, hrel, hle _ _ hin⟩
  | imported hlookup ht hi =>
    exact ⟨hdepth, hlimit, _, hc.toRelated.importing hi, Or.inr (lasting_root _ _ _)⟩
  | @entered definition address scope p arguments bindings c hbelow hb =>
    obtain ⟨-, hfunction, hvalues⟩ := hin
    have hdeep : Related scopesRenumbered w.frames { c with depth := c.depth + 1 } { c with depth := c.depth + 1 } :=
      { hc.toRelated with depth := rfl }
    have hbound := definition.bindArguments_alike hvalues
    rw [hb] at hbound
    cases hfunction with
    | defined _ _ hscope =>
      cases hbound with
      | ok hbound =>
        obtain ⟨hrel, hle⟩ := bindAll_sound (hdeep.block hscope)
          (Value.entriesAlike_mono (sup_le_sup_right le_sup_left _) _ hbound)
        refine ⟨(depth_bindAll bindings _).trans (congrArg (· + 1) hdepth), ?_, _, hrel,
          hle _ _ (Or.inl (Or.inr ⟨rfl, rfl⟩))⟩
        rw [hdepth] at hbelow
        exact hbelow
  | @native f p arguments c hnative =>
    obtain ⟨hw, hfunction, hvalues⟩ := hin
    exact ⟨hdepth, hlimit, _, hc.toRelated.push (.some (current_in_sight hc hw)),
      Eval.action_alike rfl henv.uniform hc.admits p hfunction hvalues⟩
  | logged =>
    cases hin with
    | log _ hnext => exact ⟨hdepth, hlimit, w, { hc with }, hnext⟩
  | reading => exact ⟨hdepth, hlimit, w, hc, trivial⟩
  | @afterReading p name next v c d h =>
    cases hin with
    | read _ hnext =>
      obtain ⟨hrel, hle, hv⟩ := after hc (Eval.readVariable_alike (enters_in_step henv).alike henv (env.enter_keeps hf)
        (env.enter_keeps hf) name p) h
      exact ⟨(depth_after (Eval.Keeps.readVariable (env.enter_keeps hf) name p) h).trans hdepth, hlimit, w, hrel,
        hnext _ v v hle hrel.admits hv⟩
  | bound =>
    cases hin with
    | bind _ hv hnext => exact ⟨hdepth, hlimit, w, hc.bind hv _, hnext⟩

theorem within (hf : env.Forgets) (henv : env.Alike .scopes Eq env) (h : Sound 0 a c) (hwithin : Within env a c n b d) :
    Sound n b d := by
  induction hwithin with
  | refl => exact h
  | step _ hs ih => exact ih.step hf henv hs

end Sound
end Activity
end TemplatedSql
