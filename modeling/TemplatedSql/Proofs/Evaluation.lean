import TemplatedSql.Proofs.Frame

/-! # Every evaluation keeps its frame and ends

Expressions bind nothing in the scopes they find; a node binds the names that it sets and the macros that
it defines, outside the bodies of loops and macros. Each opened body is a template imported for the first
time or a macro below the limit, so an evaluation ends wherever the bodies that may be opened inside one
another are no more than there is room for. -/

namespace TemplatedSql

/-! ### The names that a node binds -/

mutual

/-- The names that a node sets or defines as macros, outside the bodies of loops and macros. -/
def Node.targets : Node → List String
  | .text .. | .output .. | .loop .. => []
  | .branch _ _ body rest => body.targets ++ rest.targets
  | .macroDef d => [d.name]
  | .assign _ name _ => [name]

/-- The same of what follows a condition. -/
def Alternative.targets : Alternative → List String
  | .nothing => []
  | .otherwise body => body.targets
  | .elseIf _ body rest => body.targets ++ rest.targets

/-- The same of a body. -/
def Body.targets : Body → List String
  | ⟨_, nodes⟩ => Node.targetsAll nodes

/-- The same of the nodes of a body. -/
def Node.targetsAll : List Node → List String
  | [] => []
  | node :: nodes => node.targets ++ Node.targetsAll nodes

end

namespace Eval
variable {α β : Type} {env : Environment} {n : Nat} {names more : Set String}

theorem joinAll_cons (f : α → Eval String) (text : String) (a : α) (as : List α) :
    joinAll f text (a :: as) = f a >>= fun s => joinAll f (text ++ s) as := by
  rw [joinAll]
  funext c
  show _ = Eval.bind (f a) _ c
  unfold Eval.bind
  cases f a c <;> rfl

/-! ### Where imports and calls end -/

section
variable {enter : Body → Address → Eval String} {t : Template} {name : String} {p : Position} {c : Context}

/-- The import of a template ends where the rendering of its body does, in the scope that it began in. -/
theorem context?_importTemplate (hi : c.imported.get? t.name = none) : (importTemplate enter t p c).context? =
    (enter t.body ⟨.library t.name, []⟩ (c.importing t.name)).context?.map fun d => { d with current := c.current } := by
  unfold importTemplate
  simp only [hi, context?_bind_pure, context?_mapError, context?_andThen]
  rfl

/-- Reading a name ends where the import of its template does. -/
theorem context?_readVariable (hlookup : env.lookup c name = none) (ht : env.library.get? name = some t) :
    (readVariable env enter name p c).context? = (importTemplate enter t p c).context? := by
  unfold readVariable
  simp only [hlookup, ht, Eval.bind]
  cases importTemplate enter t p c <;> rfl

/-- The call of a macro ends where the rendering of its body does, at the depth of the call. -/
theorem context?_callMacro {d : MacroDef} {address : Address} {scope : Nat} {arguments : List Argument}
    {bindings : Table Value} (hdepth : c.depth < maxCallDepth) (hb : d.bindArguments arguments = .ok bindings) :
    (callMacro env enter d address scope p arguments c).context? =
      (inScope env scope (do
        update fun c => bindings.foldl (fun c b => c.bind b.1 b.2) c
        enter d.body address) { c with depth := c.depth + 1 }).context?.map fun e => { e with depth := c.depth } := by
  unfold callMacro
  rw [if_neg (Nat.not_le_of_lt hdepth)]
  simp only [hb, context?_bind_pure, context?_andThen]

end

/-! ### What an evaluation keeps -/

/-- An evaluation ends in a frame of its start wherever it ends, and it does end where there is room for
    fewer than `n` more bodies. -/
structure Keeps (env : Environment) (n : Nat) (names : Set String) (m : Eval α) : Prop where
  frame : ∀ {c d}, (m c).context? = some d → Frame env names c d
  ends : ∀ {c}, env.room c < n → ∃ d, (m c).context? = some d

namespace Keeps

/-- An evaluation that ends after one step. -/
theorem of_step {m : Eval α} (h : ∀ c, ∃ d, (m c).context? = some d ∧ Frame env names c d) : m.Keeps env n names where
  frame {c d} hd := by
    obtain ⟨d', hd', hf⟩ := h c
    rw [hd] at hd'
    cases hd'
    exact hf
  ends {c} _ := by
    obtain ⟨d, hd, -⟩ := h c
    exact ⟨d, hd⟩

theorem mono {m : Eval α} (h : m.Keeps env n names) (hsub : names ⊆ more) : m.Keeps env n more where
  frame hd := (h.frame hd).mono hsub
  ends := h.ends

theorem pure (v : α) : (Eval.pure v).Keeps env n names :=
  of_step fun c => ⟨c, rfl, Frame.refl c⟩

theorem fail (p : Position) (cause : Cause) : (Eval.fail p cause : Eval α).Keeps env n names :=
  of_step fun c => ⟨c, rfl, Frame.refl c⟩

theorem located (p : Position) (r : Except Cause α) : (Eval.located p r).Keeps env n names := by
  cases r with
  | ok v => exact pure v
  | error cause => exact fail p cause

theorem context : Eval.context.Keeps env n names :=
  of_step fun c => ⟨c, rfl, Frame.refl c⟩

theorem update {f : Context → Context} (h : ∀ c, Frame env names c (f c)) : (Eval.update f).Keeps env n names :=
  of_step fun c => ⟨f c, rfl, h c⟩

theorem bind {m : Eval α} {f : α → Eval β} (hm : m.Keeps env n names) (hf : ∀ v, (f v).Keeps env n names) :
    (m >>= f).Keeps env n names where
  frame {c d} hd := by
    change (Eval.bind m f c).context? = some d at hd
    unfold Eval.bind at hd
    cases hmc : m c with
    | done v e =>
      rw [hmc] at hd
      exact (hm.frame (by rw [hmc]; rfl)).trans ((hf v).frame hd)
    | failed err e =>
      rw [hmc] at hd
      exact hm.frame (by rw [hmc]; exact hd)
    | exhausted =>
      rw [hmc] at hd
      cases hd
  ends {c} hroom := by
    change ∃ d, (Eval.bind m f c).context? = some d
    unfold Eval.bind
    obtain ⟨e, he⟩ := hm.ends hroom
    cases hmc : m c with
    | done v e =>
      -- The first evaluation forgets no template, so there is no more room after it than before.
      have hframe := hm.frame (c := c) (d := e) (by rw [hmc]; rfl)
      exact (hf v).ends (Nat.lt_of_le_of_lt (Environment.room_le hframe) hroom)
    | failed err e => exact ⟨e, rfl⟩
    | exhausted =>
      rw [hmc] at he
      cases he

theorem joinAll {f : α → Eval String} (hf : ∀ a, (f a).Keeps env n names) (text : String) (as : List α) :
    (Eval.joinAll f text as).Keeps env n names := by
  induction as generalizing text with
  | nil => exact pure text
  | cons a as ih =>
    rw [joinAll_cons]
    exact bind (hf a) fun s => ih (text ++ s)

/-- The rounds of a loop. -/
theorem rounds {m : Eval String} (hm : m.Keeps env n Set.univ) (rounds : List (Table Value)) :
    (Eval.joinAll
      (fun (bindings, round) => do
        Eval.update fun c => bindings.foldl (fun c b => c.bind b.1 b.2) c
        Eval.update fun c => c.bind "loop" (loopInfo round rounds.length)
        m)
      "" rounds.zipIdx).Keeps env n Set.univ :=
  joinAll (fun _ => bind (update fun c => Frame.bindAll (fun _ _ => Set.mem_univ _) c) fun _ =>
    bind (update fun c => Frame.bind (Set.mem_univ _) c _) fun _ => hm) "" rounds.zipIdx

/-! ### Scopes, imports and calls -/

section
variable (hf : env.Forgets)
include hf

/-- Wherever the scopes of an evaluation are its own, it binds nothing around them. -/
theorem inScope {m : Eval α} (hm : m.Keeps env n names) (parent : Nat) :
    (Eval.inScope env parent m).Keeps env n ∅ where
  frame {c d} hd := by
    unfold Eval.inScope at hd
    rw [context?_andThen] at hd
    obtain ⟨e, he, rfl⟩ := Option.map_eq_some_iff.mp hd
    exact Frame.leave hf (hm.frame he)
  ends {c} hroom := by
    obtain ⟨e, he⟩ := hm.ends (c := c.opening (some parent)) hroom
    unfold Eval.inScope
    rw [Context.opening] at he
    rw [context?_andThen, he]
    exact ⟨_, rfl⟩

theorem inChild {m : Eval α} (hm : m.Keeps env n names) : (Eval.inChild env m).Keeps env n ∅ where
  frame {c _} hd := (inScope hf hm c.current).frame hd
  ends {c} hroom := (inScope hf hm c.current).ends hroom

end

section
variable {enter : Body → Address → Eval String} (henter : ∀ body address, (enter body address).Keeps env n Set.univ)
include henter

theorem importTemplate {name : String} {t : Template} (hlib : env.library.get? name = some t) (p : Position) :
    (Eval.importTemplate enter t p).Keeps env (n + 1) ∅ where
  frame {c d} hd := by
    cases hi : c.imported.get? t.name with
    | some i =>
      unfold Eval.importTemplate at hd
      rw [hi] at hd
      cases hd
      exact Frame.refl c
    | none =>
      rw [context?_importTemplate hi] at hd
      obtain ⟨e, he, rfl⟩ := Option.map_eq_some_iff.mp hd
      exact Frame.importRoot hi ((henter _ _).frame he)
  ends {c} hroom := by
    cases hi : c.imported.get? t.name with
    | some i => exact ⟨c, by unfold Eval.importTemplate; rw [hi]; rfl⟩
    | none =>
      have hlt : env.room (c.importing t.name) < env.room c := Environment.room_import hlib hi _ _
      obtain ⟨e, he⟩ := (henter t.body ⟨.library t.name, []⟩).ends (Nat.lt_of_lt_of_le hlt (Nat.le_of_lt_succ hroom))
      exact ⟨_, by rw [context?_importTemplate hi, he]; rfl⟩

theorem readVariable (name : String) (p : Position) : (Eval.readVariable env enter name p).Keeps env (n + 1) ∅ := by
  have hcases : ∀ c, (Eval.readVariable env enter name p c).context? = some c ∨ ∃ t, env.library.get? name = some t ∧
      (Eval.readVariable env enter name p c).context? = (Eval.importTemplate enter t p c).context? := by
    intro c
    cases hlookup : env.lookup c name with
    | some v => exact Or.inl (by unfold Eval.readVariable; rw [hlookup]; rfl)
    | none =>
      cases ht : env.library.get? name with
      | none => exact Or.inl (by unfold Eval.readVariable; rw [hlookup, ht]; rfl)
      | some t => exact Or.inr ⟨t, rfl, context?_readVariable hlookup ht⟩
  constructor
  · intro c d hd
    rcases hcases c with hstay | ⟨t, ht, himport⟩
    · rw [hstay] at hd
      cases hd
      exact Frame.refl c
    · exact (importTemplate henter ht p).frame (himport ▸ hd)
  · intro c hroom
    rcases hcases c with hstay | ⟨t, ht, himport⟩
    · exact ⟨c, hstay⟩
    · obtain ⟨d, hd⟩ := (importTemplate henter ht p).ends hroom
      exact ⟨d, himport.trans hd⟩

theorem perform (p : Position) (action : Action) : (Eval.perform env enter p action).Keeps env (n + 1) Set.univ := by
  induction action with
  | finish v => exact pure v
  | fail cause => exact fail p cause
  | log message next ih => exact bind (update fun c => Frame.of_eq rfl rfl rfl rfl) fun _ => ih
  | read name next ih => exact bind ((readVariable henter name p).mono (Set.empty_subset _)) ih
  | bind name v next ih => exact bind (update fun c => Frame.bind (Set.mem_univ name) c v) fun _ => ih

/-- A body is rendered with the parameters of a macro bound. -/
theorem withBindings (bindings : Table Value) (body : Body) (address : Address) : (do
    Eval.update fun c => bindings.foldl (fun c b => c.bind b.1 b.2) c
    enter body address : Eval String).Keeps env n Set.univ :=
  bind (update fun c => Frame.bindAll (fun _ _ => Set.mem_univ _) c) fun _ => henter body address

variable (hf : env.Forgets)
include hf

theorem callMacro (d : MacroDef) (address : Address) (scope : Nat) (p : Position) (arguments : List Argument) :
    (Eval.callMacro env enter d address scope p arguments).Keeps env (n + 1) ∅ := by
  have hbody := fun bindings => withBindings henter bindings d.body address
  have hcases : ∀ c, (Eval.callMacro env enter d address scope p arguments c).context? = some c ∨
      ∃ bindings, c.depth < maxCallDepth ∧ d.bindArguments arguments = .ok bindings := by
    intro c
    by_cases hdepth : maxCallDepth ≤ c.depth
    · exact Or.inl (by unfold Eval.callMacro; rw [if_pos hdepth]; rfl)
    · cases hb : d.bindArguments arguments with
      | error cause => exact Or.inl (by unfold Eval.callMacro; rw [if_neg hdepth, hb]; rfl)
      | ok bindings => exact Or.inr ⟨bindings, Nat.lt_of_not_le hdepth, rfl⟩
  constructor
  · intro c e he
    rcases hcases c with hstay | ⟨bindings, hdepth, hb⟩
    · rw [hstay] at he
      cases he
      exact Frame.refl c
    · rw [context?_callMacro hdepth hb] at he
      obtain ⟨e', he', rfl⟩ := Option.map_eq_some_iff.mp he
      exact ((inScope hf (hbody bindings) scope).frame he').deeper
  · intro c hroom
    rcases hcases c with hstay | ⟨bindings, hdepth, hb⟩
    · exact ⟨c, hstay⟩
    · have hlt := Environment.room_call env hdepth
      obtain ⟨e, he⟩ := (inScope hf (hbody bindings) scope).ends (Nat.lt_of_lt_of_le hlt (Nat.le_of_lt_succ hroom))
      exact ⟨_, by rw [context?_callMacro hdepth hb, he]; rfl⟩

theorem call (f : Function) (p : Position) (arguments : List Argument) :
    (Eval.call env enter f p arguments).Keeps env (n + 1) ∅ := by
  cases f with
  | defined d address scope => exact callMacro henter hf d address scope p arguments
  | _ => exact inChild hf (perform henter p _)

end
end Keeps
end Eval

/-! ### Expressions and nodes -/

section
open Eval
variable {env : Environment} {n : Nat} {enter : Body → Address → Eval String}

mutual

theorem Expr.eval_keeps (henter : ∀ body address, (enter body address).Keeps env n Set.univ) (hf : env.Forgets) :
    ∀ e : Expr, (e.eval env enter).Keeps env (n + 1) ∅
  | .literal .. => by
    rw [Expr.eval]
    exact .pure _
  | .list _ items => by
    rw [Expr.eval]
    exact .bind (Expr.evalAll_keeps henter hf items) fun _ => .pure _
  | .name p name => by
    rw [Expr.eval]
    exact .readVariable henter name p
  | .member _ target _ => by
    rw [Expr.eval]
    exact .bind (target.eval_keeps henter hf) fun _ => .bind .context fun _ =>
      .bind (.update fun c => Frame.of_eq rfl rfl rfl rfl) fun _ => .pure _
  | .index _ target index => by
    rw [Expr.eval]
    exact .bind (target.eval_keeps henter hf) fun _ => .bind (index.eval_keeps henter hf) fun _ => .located _ _
  | .binary _ op left right => by
    rw [Expr.eval]
    refine .bind (left.eval_keeps henter hf) fun a => ?_
    have hright := right.eval_keeps henter hf
    cases op with
    | and =>
      dsimp only
      split
      · exact hright
      · exact .pure _
    | or =>
      dsimp only
      split
      · exact .pure _
      · exact hright
    | _ => exact .bind hright fun _ => .located _ _
  | .unary _ op operand => by
    rw [Expr.eval]
    refine .bind (operand.eval_keeps henter hf) fun _ => ?_
    cases op with
    | not => exact .pure _
    | neg => exact .located _ _
  | .call p callee arguments => by
    rw [Expr.eval]
    refine .bind (CallArgument.evalAll_keeps henter hf arguments) fun _ => ?_
    refine .bind (callee.eval_keeps henter hf) fun v => ?_
    cases v with
    | function f => exact .call henter hf f p _
    | _ => exact .fail _ _

theorem Expr.evalAll_keeps (henter : ∀ body address, (enter body address).Keeps env n Set.univ) (hf : env.Forgets) :
    ∀ es : List Expr, (Expr.evalAll env enter es).Keeps env (n + 1) ∅
  | [] => by
    rw [Expr.evalAll]
    exact .pure _
  | e :: es => by
    rw [Expr.evalAll]
    exact .bind (e.eval_keeps henter hf) fun _ => .bind (Expr.evalAll_keeps henter hf es) fun _ => .pure _

theorem CallArgument.eval_keeps (henter : ∀ body address, (enter body address).Keeps env n Set.univ)
    (hf : env.Forgets) : ∀ a : CallArgument, (a.eval env enter).Keeps env (n + 1) ∅
  | ⟨_, e⟩ => by
    rw [CallArgument.eval]
    exact .bind (e.eval_keeps henter hf) fun _ => .pure _

theorem CallArgument.evalAll_keeps (henter : ∀ body address, (enter body address).Keeps env n Set.univ)
    (hf : env.Forgets) : ∀ as : List CallArgument, (CallArgument.evalAll env enter as).Keeps env (n + 1) ∅
  | [] => by
    rw [CallArgument.evalAll]
    exact .pure _
  | a :: as => by
    rw [CallArgument.evalAll]
    exact .bind (a.eval_keeps henter hf) fun _ => .bind (CallArgument.evalAll_keeps henter hf as) fun _ => .pure _

end

mutual

theorem Node.render_keeps (henter : ∀ body address, (enter body address).Keeps env n Set.univ) (hf : env.Forgets)
    (address : Address) (step : Nat) :
    ∀ node : Node, (node.render env enter address step).Keeps env (n + 1) {name | name ∈ node.targets}
  | .text .. => by
    rw [Node.render]
    exact .pure _
  | .output _ expr => by
    rw [Node.render]
    exact .bind ((expr.eval_keeps henter hf).mono (Set.empty_subset _)) fun _ => .pure _
  | .branch _ condition body rest => by
    rw [Node.render]
    refine .bind ((condition.eval_keeps henter hf).mono (Set.empty_subset _)) fun v => ?_
    split
    · exact (body.render_keeps henter hf _).mono fun name h => List.mem_append_left _ h
    · exact (rest.render_keeps henter hf _ _).mono fun name h => List.mem_append_right _ h
  | .loop p targets iterable body => by
    rw [Node.render]
    refine .bind ((iterable.eval_keeps henter hf).mono (Set.empty_subset _)) fun v => ?_
    cases loopRounds p targets iterable v with
    | error e => exact .of_step fun c => ⟨c, rfl, Frame.refl c⟩
    | ok rounds =>
      -- Whatever a round binds, it binds in the scope of the loop.
      have hrounds := Keeps.rounds ((body.render_keeps henter hf { address with path := step :: address.path }).mono
        (Set.subset_univ _)) rounds
      exact (Keeps.inChild hf hrounds).mono (Set.empty_subset _)
  | .macroDef d => by
    rw [Node.render]
    refine .bind (.update fun c => ?_) fun _ => .pure _
    exact Frame.bind (by simp [Node.targets]) c _
  | .assign p name value => by
    rw [Node.render]
    refine .bind ((value.eval_keeps henter hf).mono (Set.empty_subset _)) fun v => ?_
    refine .bind (.update fun c => ?_) fun _ => .pure _
    exact Frame.bind (by simp [Node.targets]) c v

theorem Alternative.render_keeps (henter : ∀ body address, (enter body address).Keeps env n Set.univ)
    (hf : env.Forgets) (address : Address) (arm : Nat) :
    ∀ rest : Alternative, (rest.render env enter address arm).Keeps env (n + 1) {name | name ∈ rest.targets}
  | .nothing => by
    rw [Alternative.render]
    exact .pure _
  | .otherwise body => by
    rw [Alternative.render]
    exact body.render_keeps henter hf _
  | .elseIf condition body rest => by
    rw [Alternative.render]
    refine .bind ((condition.eval_keeps henter hf).mono (Set.empty_subset _)) fun v => ?_
    split
    · exact (body.render_keeps henter hf _).mono fun name h => List.mem_append_left _ h
    · exact (rest.render_keeps henter hf _ _).mono fun name h => List.mem_append_right _ h

theorem Body.render_keeps (henter : ∀ body address, (enter body address).Keeps env n Set.univ) (hf : env.Forgets)
    (address : Address) : ∀ body : Body, (body.render env enter address).Keeps env (n + 1) {name | name ∈ body.targets}
  | ⟨_, nodes⟩ => by
    rw [Body.render]
    exact Node.renderAll_keeps henter hf address 0 "" nodes

theorem Node.renderAll_keeps (henter : ∀ body address, (enter body address).Keeps env n Set.univ) (hf : env.Forgets)
    (address : Address) (step : Nat) (text : String) :
    ∀ nodes : List Node, (Node.renderAll env enter address step text nodes).Keeps env (n + 1)
      {name | name ∈ Node.targetsAll nodes}
  | [] => by
    rw [Node.renderAll]
    exact .pure _
  | node :: nodes => by
    have htail : ∀ step text, (Node.renderAll env enter address step text nodes).Keeps env (n + 1)
        {name | name ∈ Node.targetsAll (node :: nodes)} := fun step text =>
      (Node.renderAll_keeps henter hf address step text nodes).mono fun name h => List.mem_append_right _ h
    have hhead : (node.render env enter address step).Keeps env (n + 1)
        {name | name ∈ Node.targetsAll (node :: nodes)} :=
      (node.render_keeps henter hf address step).mono fun name h => List.mem_append_left _ h
    cases node with
    | text p more =>
      rw [Node.renderAll]
      exact htail step (text ++ more)
    | _ =>
      rw [Node.renderAll]
      · exact .bind hhead fun more => htail (step + 1) (text ++ more)
      · simp

end

end

/-- Rendering a body keeps its frame, and ends where there is room for fewer bodies than may be open. -/
theorem renderBody_keeps {env : Environment} (hf : env.Forgets) (n : Nat) (body : Body) (address : Address) :
    (renderBody env n body address).Keeps env n Set.univ := by
  induction n generalizing body address with
  | zero =>
    constructor
    · intro c d h
      cases h
    · intro c h
      exact absurd h (Nat.not_lt_zero _)
  | succ n ih => exact (body.render_keeps ih hf address).mono (Set.subset_univ _)

theorem Environment.enter_keeps {env : Environment} (hf : env.Forgets) (body : Body) (address : Address) :
    (env.enter body address).Keeps env env.allowance Set.univ :=
  renderBody_keeps hf env.allowance body address

/-! ### The frame of an evaluation -/

/-- Whether it gives a value or fails, an evaluation changes of the scopes that were there only the current
    one, and that one only at the targets of the node. An expression changes none of them, whatever it calls
    and imports. A function of the host that is called does what an action can: it logs, reads and binds. -/
theorem evaluation_changes_only_targets (env : Environment) (hr : env.discard = Context.release) (c : Context) :
    (∀ (node : Node) (address : Address) (step : Nat), ∃ d,
      (node.render env env.enter address step c).context? = some d ∧ d.current = c.current ∧
        ∀ i s, c.arena.scope? i = some s → ∃ t, d.arena.scope? i = some t ∧ t.parent = s.parent ∧
          (i ≠ c.current → t = s) ∧ ∀ name, name ∉ node.targets → t.bindings.get? name = s.bindings.get? name) ∧
    ∀ e : Expr, ∃ d, (e.eval env env.enter c).context? = some d ∧ d.current = c.current ∧
      ∀ i s, c.arena.scope? i = some s → d.arena.scope? i = some s := by
  have hf := Environment.forgets_release hr
  have hroom : env.room c < env.allowance + 1 := Nat.lt_succ_of_lt (env.room_lt_allowance c)
  constructor
  · intro node address step
    have hkeeps := node.render_keeps (env.enter_keeps hf) hf address step
    obtain ⟨d, hd⟩ := hkeeps.ends hroom
    have hframe := hkeeps.frame hd
    refine ⟨d, hd, hframe.current, fun i s hs => ?_⟩
    by_cases hi : i = c.current
    · subst hi
      obtain ⟨entries, hnames, ht⟩ := hframe.here s hs
      refine ⟨_, ht, rfl, fun h => absurd rfl h, fun name hname => ?_⟩
      refine Table.get?_setAll_of_forall_ne (fun e he heq => hname ?_) s.bindings
      exact heq ▸ hnames e he
    · exact ⟨s, hframe.scope i s hs hi, rfl, fun _ => rfl, fun _ _ => rfl⟩
  · intro e
    have hkeeps := e.eval_keeps (env.enter_keeps hf) hf
    obtain ⟨d, hd⟩ := hkeeps.ends hroom
    have hframe := hkeeps.frame hd
    exact ⟨d, hd, hframe.current, fun i s hs => hframe.scope_of_empty hs⟩

/-- A condition inside which a template is imported that reads a name of its own name, which only then it sets:
    the one name of the root that may differ afterwards is `x`. -/
theorem evaluation_changes_only_x :
    let p : Position := ⟨1, 1⟩
    let cyclic : Template := ⟨"lib", ⟨p, [.assign p "y" (.name p "lib"), .assign p "lib" (.name p "y")]⟩⟩
    let env : Environment := { library := [("lib", cyclic)] }
    let c := (Context.initial.bind "x" (.boolean true)).bind "y" (.boolean false)
    let node : Node := .branch p (.name p "x") ⟨p, [.assign p "x" (.name p "lib")]⟩ .nothing
    env.discard = Context.release ∧ node.targets = ["x"] ∧ ∃ d,
      (node.render env env.enter ⟨.given 0, []⟩ 0 c).context? = some d ∧
        ∃ t, d.arena.scope? 0 = some t ∧ t.bindings.get? "y" = some (.boolean false) := by
  intro p cyclic env c node
  obtain ⟨d, hd, -, hscope⟩ := (evaluation_changes_only_targets env rfl c).1 node ⟨.given 0, []⟩ 0
  obtain ⟨t, ht, -, -, hnames⟩ := hscope 0 _ rfl
  exact ⟨rfl, rfl, d, hd, t, ht, (hnames "y" (by decide)).trans rfl⟩

end TemplatedSql
