import TemplatedSql.Proofs.Import.Chronicle
import TemplatedSql.Proofs.Import.Closed
import TemplatedSql.Proofs.Import.Failure

/-! # A template is imported once

Whatever an evaluation reads, calls and imports, its moments form a chronicle. Hence in a whole session no template is
imported twice, each name that a template serves is read from the one root of that template, and a name that is in
sight without an import is read without one. -/

namespace TemplatedSql

namespace Watched
variable {α β : Type} {env : Environment} {n : Nat}

/-- A watched evaluation keeps its frame, and its moments form a chronicle wherever it ends. -/
structure Chronicled (env : Environment) (n : Nat) (m : Watched α) : Prop where
  keeps : m.run.Keeps env n Set.univ
  chronicle : ∀ {c e}, c.Rooted → (m.run c).context? = some e → Chronicle env c (m.moments c) e

namespace Chronicled

theorem quiet {m : Eval α} (h : m.Keeps env n Set.univ) : (Watched.quiet m).Chronicled env n :=
  ⟨h, fun {c e} _ _ => .nil c e⟩

/-- The moments of two evaluations, one after the other. -/
theorem bind {m : Watched α} {f : α → Watched β} (hm : m.Chronicled env n) (hf : ∀ v, (f v).Chronicled env n) :
    (m >>= f).Chronicled env n where
  keeps := .bind hm.keeps fun v => (hf v).keeps
  chronicle {c e} hc he := by
    change (Eval.bind m.run (fun v => (f v).run) c).context? = some e at he
    show Chronicle env c (m.moments c ++ _) e
    unfold Eval.bind at he
    cases hmc : m.run c with
    | done v d =>
      rw [hmc] at he
      have hd : (m.run c).context? = some d := by rw [hmc]; rfl
      have hframe := hm.keeps.frame hd
      exact (hm.chronicle hc hd).append hc hframe ((hf v).keeps.frame he)
        ((hf v).chronicle (hc.of_frame hframe) he)
    | failed error d =>
      rw [hmc] at he
      rw [List.append_nil]
      exact hm.chronicle hc (by rw [hmc]; exact he)
    | exhausted =>
      rw [hmc] at he
      cases he

section
variable (hf : env.Forgets)
include hf

theorem inScope {m : Watched α} (hm : m.Chronicled env n) (parent : Nat) :
    (Watched.inScope env parent m).Chronicled env n where
  keeps := (Eval.Keeps.inScope hf hm.keeps parent).mono (Set.empty_subset _)
  chronicle {c e} hc he := by
    change (Eval.inScope env parent m.run c).context? = some e at he
    unfold Eval.inScope at he
    rw [Eval.context?_andThen] at he
    obtain ⟨d, hd, rfl⟩ := Option.map_eq_some_iff.mp he
    exact .leave hf hc (hm.keeps.frame hd) (hm.chronicle (hc.opening (some parent)) hd)

theorem inChild {m : Watched α} (hm : m.Chronicled env n) : (Watched.inChild env m).Chronicled env n where
  keeps := (Eval.Keeps.inChild hf hm.keeps).mono (Set.empty_subset _)
  chronicle {c _} hc he := (inScope hf hm c.current).chronicle hc he

end

section
variable {enter : Body → Address → Watched String} (henter : ∀ body address, (enter body address).Chronicled env n)
include henter

/-- Reading a name imports at most the template that the library has under it. -/
theorem readVariable (name : String) (p : Position) :
    (Watched.readVariable env enter name p).Chronicled env (n + 1) where
  keeps := (Eval.Keeps.readVariable (fun body address => (henter body address).keeps) name p).mono (Set.empty_subset _)
  chronicle {c e} hc he := by
    by_cases hknown : ∀ t, env.lookup c name = none → env.library.get? name = some t → c.imported.get? t.name ≠ none
    · rw [moments_readVariable_of_known p hknown]
      exact .read ((Eval.Keeps.readVariable (fun body address => (henter body address).keeps) name p).frame he) hknown
    · push Not at hknown
      obtain ⟨t, hlookup, ht, hi⟩ := hknown
      change (Eval.readVariable env (runs enter) name p c).context? = some e at he
      rw [Eval.context?_readVariable hlookup ht, Eval.context?_importTemplate hi] at he
      obtain ⟨d, hd, rfl⟩ := Option.map_eq_some_iff.mp he
      rw [moments_readVariable_of_import p hlookup ht hi hd]
      have hbody := henter t.body ⟨.library t.name, []⟩
      exact .importing hlookup ht hi (hbody.keeps.frame hd) (hbody.chronicle (hc.importing t.name) hd)

theorem withBindings (bindings : Table Value) (body : Body) (address : Address) :
    (Watched.withBindings enter bindings body address).Chronicled env n :=
  bind (quiet ((Eval.Quiet.boundAll bindings).keeps n)) fun _ => henter body address

variable (hf : env.Forgets)
include hf

/-- What happens in a macro happens in a scope of its own, one call deeper. -/
theorem callMacro (d : MacroDef) (address : Address) (scope : Nat) (p : Position) (arguments : List Argument) :
    (Watched.callMacro env enter d address scope p arguments).Chronicled env (n + 1) where
  keeps := (Eval.Keeps.callMacro (fun body address => (henter body address).keeps) hf d address scope p arguments).mono
    (Set.empty_subset _)
  chronicle {c e} hc he := by
    change (Eval.callMacro env (runs enter) d address scope p arguments c).context? = some e at he
    show Chronicle env c (if _ then _ else _) e
    by_cases hdepth : maxCallDepth ≤ c.depth
    · rw [if_pos hdepth]
      exact .nil c e
    · rw [if_neg hdepth]
      cases hb : d.bindArguments arguments with
      | error cause => exact .nil c e
      | ok bindings =>
        rw [Eval.context?_callMacro (Nat.lt_of_not_le hdepth) hb] at he
        obtain ⟨d', hd, rfl⟩ := Option.map_eq_some_iff.mp he
        have hdeep : Context.Rooted { c with depth := c.depth + 1 } := ⟨hc.current, hc.imported⟩
        have hscope := inScope hf (withBindings henter bindings d.body address) scope
        exact (hscope.chronicle hdeep hd).of_eq rfl rfl rfl rfl rfl

/-- Whatever is put together from what forms a chronicle forms one. -/
theorem closed : Closed env enter (Chronicled env (n + 1)) where
  quiet hm := quiet (hm.keeps (n + 1))
  bind hm hf := bind hm hf
  inChild hm := inChild hf hm
  readVariable := readVariable henter
  callMacro := callMacro henter hf

end
end Chronicled
end Watched

section
open Watched
variable {env : Environment}

theorem watchBody_chronicled {env : Environment} (hf : env.Forgets) (n : Nat) (body : Body) (address : Address) :
    (watchBody env n body address).Chronicled env n := by
  induction n generalizing body address with
  | zero =>
    have hkeeps := renderBody_keeps hf 0 body address
    exact .quiet hkeeps
  | succ n ih => exact Body.watch_closed (Chronicled.closed ih hf) address body

end

/-! ### Sessions -/

namespace Session
variable {env : Environment} {n : Nat}

theorem awaitWatched_chronicled {α : Type} {m : Watched α} (h : m.Chronicled env n) :
    (awaitWatched m).Chronicled env n where
  keeps := await_keeps h.keeps
  chronicle hc he := h.chronicle hc (by rwa [← context?_await])

theorem watchRenderAgain_chronicled (hf : env.Forgets) (serial : Nat) (body : Body) :
    (watchRenderAgain env serial body).Chronicled env (env.allowance + 1) where
  keeps := renderAgain_keeps hf serial body
  chronicle {c e} hc he := by
    change (env.enter body ⟨.given serial, []⟩ c).context? = some e at he
    rw [← env.runs_watch] at he
    exact (watchBody_chronicled hf env.allowance body ⟨.given serial, []⟩).chronicle hc he

theorem watchRender_chronicled (hf : env.Forgets) (body : Body) :
    (watchRender env body).Chronicled env (env.allowance + 1) where
  keeps := render_keeps hf body
  chronicle {c _} hc he :=
    have hgiven : Context.Rooted { c with given := c.given + 1 } := ⟨hc.current, hc.imported⟩
    ((watchRenderAgain_chronicled hf c.given body).chronicle hgiven he).of_eq rfl rfl rfl rfl rfl

mutual

theorem Op.watch_chronicled (hf : env.Forgets) : ∀ op : Op, (op.watch env).Chronicled env (env.allowance + 1)
  | .render body => by
    rw [Op.watch]
    exact awaitWatched_chronicled (watchRender_chronicled hf body)
  | .renderAgain serial body => by
    rw [Op.watch]
    exact awaitWatched_chronicled (watchRenderAgain_chronicled hf serial body)
  | .get name p => by
    rw [Op.watch]
    exact awaitWatched_chronicled (.readVariable (watchBody_chronicled hf env.allowance) name p)
  | .lookup name => by
    rw [Op.watch]
    exact .quiet (.of_step fun c => ⟨c, rfl, Frame.refl c⟩)
  | .set name v => by
    rw [Op.watch]
    exact .quiet ((Eval.Quiet.bound name fun _ => v).keeps _)
  | .call f p arguments => by
    rw [Op.watch]
    have hclosed := Watched.Chronicled.closed (watchBody_chronicled hf env.allowance) hf
    exact awaitWatched_chronicled (hclosed.call f p arguments)
  | .scoped ops error => by
    rw [Op.watch]
    exact .inChild hf (.bind (Op.watchAll_chronicled hf ops) fun _ => .quiet (finish_keeps error))

theorem Op.watchAll_chronicled (hf : env.Forgets) :
    ∀ ops : List Op, (Op.watchAll env ops).Chronicled env (env.allowance + 1)
  | [] => by
    rw [Op.watchAll]
    exact .quiet (.pure ())
  | op :: ops => by
    rw [Op.watchAll]
    exact .bind (awaitWatched_chronicled (op.watch_chronicled hf)) fun _ => Op.watchAll_chronicled hf ops

end

end Session

/-! ### What comes after an import -/

/-- A template is imported in a context with the given root, which is a live scope without a parent. Every name that
    is in sight only through the library and that the template serves is read from this scope, which renders and
    changes nothing. -/
structure Environment.Serves (env : Environment) (t : Template) (root : Nat) (x : Context) : Prop where
  imported : x.imported.get? t.name = some root
  reads : ∃ s, x.arena.scope? root = some s ∧ s.parent = none ∧ ∀ name u enter p, env.lookup x name = none →
    env.library.get? name = some u → u.name = t.name →
      Eval.readVariable env enter name p x = .done ((s.bindings.get? name).getD .undefined) x

theorem Moment.Lasts.serves {env : Environment} {name : String} {t : Template} {c x : Context}
    (h : (opens name t c).Lasts x) : env.Serves t c.arena.length x := by
  have hi : x.imported.get? t.name = some c.arena.length :=
    h.retained.imported t.name _ (c.imported_importing t.name)
  obtain ⟨s, hs, hgrows⟩ := h.retained.root t.name c.arena.length ⟨[], none⟩ (c.imported_importing t.name)
    (Arena.scope?_push_length c.arena none)
  refine ⟨hi, s, hs, hgrows.parent, fun other u enter p hlookup hu hname => ?_⟩
  rw [Eval.readVariable_of_imported hlookup hu (hname ▸ hi), hs]
  rfl

/-- A program does what it likes with a context, though a function of the host that is called from a template does no
    more than an action can: it reads names, which imports them, but looks none up without that. Watching this changes
    nothing and shows that

    * no two templates that are imported have the same name;
    * a template is imported exactly when a name is read that is in sight through the library only, where it stands for
      the template, and the template has not been imported before; a name in sight otherwise is read without rendering
      anything;
    * from its import on, a template serves its names from one root, which stays live and keeps the names that it has;
      once the rendering of the template has ended, the root does not change at all. -/
theorem template_imported_once {env : Environment} (hr : env.discard = Context.release) (ops : List Session.Op) :
    ∃ moments e, moments = (Session.Op.watchAll env ops).moments .initial ∧
      (Session.Op.watchAll env ops).run = Session.Op.runAll env ops ∧
      (Session.Op.runAll env ops .initial).context? = some e ∧
      (moments.filterMap Moment.template?).Nodup ∧
      (∀ name t c, .opens name t c ∈ moments ↔ .reads name c ∈ moments ∧ env.lookup c name = none ∧
        env.library.get? name = some t ∧ c.imported.get? t.name = none) ∧
      (∀ name v c, .reads name c ∈ moments → env.lookup c name = some v →
        ∀ enter p, Eval.readVariable env enter name p c = .done v c) ∧
      moments.Pairwise (fun m x => m.Lasts x.context ∧
        ∀ name t c, m = .opens name t c → env.Serves t c.arena.length x.context) ∧
      ∀ m ∈ moments, m.Lasts e ∧ ∀ name t c, m = .opens name t c → env.Serves t c.arena.length e := by
  have hf := Environment.forgets_release hr
  have hops := Session.Op.watchAll_chronicled hf ops
  obtain ⟨e, he⟩ := hops.keeps.ends (Nat.lt_succ_of_lt (env.room_lt_allowance .initial))
  have h := hops.chronicle (.of_ordered .initial) he
  have hserves : ∀ {m : Moment} {x : Context}, m.Lasts x →
      m.Lasts x ∧ ∀ name t c, m = .opens name t c → env.Serves t c.arena.length x := by
    intro m x hm
    refine ⟨hm, fun name t c hmoment => ?_⟩
    subst hmoment
    exact hm.serves
  have hrun := Session.Op.run_watchAll env ops
  refine ⟨_, e, rfl, hrun, hrun ▸ he, h.template?_nodup, h.opened, fun name v c _ hv enter p => ?_,
    h.ordered.imp hserves, fun m hm => hserves (h.ended m hm)⟩
  unfold Eval.readVariable
  rw [hv]

/-- A template under two names that asks for the second one before it sets it, first imported in a scope that ends:
    its body is rendered once, and both names keep being read from the root that it then got. -/
theorem template_imported_once_under_two_names :
    let p : Position := ⟨1, 1⟩
    let lib : Template := ⟨"lib", ⟨p, [.assign p "a" (.name p "b"), .assign p "b" (.literal p (.boolean true))]⟩⟩
    let env : Environment := { library := [("a", lib), ("b", lib)] }
    let ops : List Session.Op := [.scoped [.get "a" p] none, .get "b" p, .get "a" p]
    ∃ moments e, moments = (Session.Op.watchAll env ops).moments .initial ∧ env.discard = Context.release ∧
      moments.length = 6 ∧ moments.filterMap Moment.template? = ["lib"] ∧
      (Session.Op.runAll env ops .initial).context? = some e ∧ env.Serves lib 2 e := by
  intro p lib env ops
  obtain ⟨moments, e, hmoments, -, he, -, -, -, -, hend⟩ := @template_imported_once env rfl ops
  have hopens : .opens "a" lib (Context.initial.opening (some 0)) ∈ moments := by
    rw [hmoments]
    exact List.mem_cons_of_mem _ List.mem_cons_self
  exact ⟨moments, e, hmoments, rfl, by rw [hmoments]; rfl, by rw [hmoments]; rfl, he, (hend _ hopens).2 _ _ _ rfl⟩

end TemplatedSql
