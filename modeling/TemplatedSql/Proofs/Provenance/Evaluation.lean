import TemplatedSql.Proofs.Evaluation
import TemplatedSql.Proofs.Provenance.Value
import TemplatedSql.Proofs.Relocation.Tree

/-! # Evaluations and the functions they know

An evaluation from a context whose scopes hold only known functions gives a value of known functions, and leaves only
these in the scopes. Where it fails, the error is of a kind that is followed at the same time: one that is reported at a
place of the tree, or one that the body of a known macro failed with. -/

namespace TemplatedSql

/-! ### Contexts -/

/-- The scopes hold only known functions, and so many bodies of macros are being rendered. -/
structure Context.Among (known : Known) (n : Nat) (c : Context) : Prop where
  bound : ∀ i name v, c.arena.bound? i name = some v → v.Among known
  depth : c.depth = n

/-- What an environment has outside its templates holds only known functions, and the templates define only known
    macros, as do the known macros in turn. -/
structure Environment.Among (known : Known) (env : Environment) : Prop where
  globals : ∀ name v, env.globals.get? name = some v → v.Among known
  overlay : ∀ name v, env.overlay.get? name = some v → v.Among known
  hosts : ∀ f ∈ env.hosts, f.Keeps known
  release : env.discard = Context.release
  library : ∀ name t, env.library.get? name = some t → ∀ d ∈ t.body.macros, d ∈ known.macros
  inner : ∀ d ∈ known.macros, ∀ e ∈ d.body.macros, e ∈ known.macros

section
variable {known : Known} {n : Nat}

namespace Context.Among
variable {c d : Context}

theorem initial : Context.initial.Among known 0 where
  bound i name v hv := by rcases i with _ | i <;> cases hv
  depth := rfl

theorem of_eq (h : c.Among known n) (harena : d.arena = c.arena) (hdepth : d.depth = c.depth) : d.Among known n :=
  ⟨harena ▸ h.bound, hdepth.trans h.depth⟩

theorem bind (h : c.Among known n) {v : Value} (hv : v.Among known) (name : String) : (c.bind name v).Among known n where
  bound i other w hw := by
    rcases Arena.eq_or_bound?_of_bind hw with rfl | hw
    · exact hv
    · exact h.bound i other w hw
  depth := h.depth

theorem bindAll {bindings : Table Value} (h : c.Among known n) (hbindings : ∀ b ∈ bindings, b.2.Among known) :
    (bindings.foldl (fun c b => c.bind b.1 b.2) c).Among known n := by
  induction bindings generalizing c with
  | nil => exact h
  | cons b bindings ih =>
    obtain ⟨hb, hbindings⟩ := List.forall_mem_cons.mp hbindings
    exact ih (h.bind hb b.1) hbindings

theorem opening (h : c.Among known n) (parent : Option Nat) : (c.opening parent).Among known n where
  bound i name v hv := h.bound i name v (Arena.bound?_push c.arena parent i name ▸ hv)
  depth := h.depth

theorem release (h : c.Among known n) (scope : Nat) : (c.release scope).Among known n where
  bound i name v hv := by
    rw [Context.release, Arena.bound?_release] at hv
    split at hv
    · cases hv
    · exact h.bound i name v hv
  depth := h.depth

/-- One more body of a macro is being rendered. -/
theorem deeper (h : c.Among known n) : Context.Among known (n + 1) { c with depth := c.depth + 1 } where
  bound := h.bound
  depth := congrArg (· + 1) h.depth

theorem lookup {env : Environment} (henv : env.Among known) (h : c.Among known n) {name : String} {v : Value}
    (hv : env.lookup c name = some v) : v.Among known := by
  rcases (Option.orElse_eq_some _ _ _).mp hv with hv | ⟨-, hv⟩
  · obtain ⟨i, hi⟩ := Arena.exists_bound?_of_findFrom hv
    exact h.bound i name v hi
  · rcases (Option.orElse_eq_some _ _ _).mp hv with hv | ⟨-, hv⟩
    · exact henv.overlay name v hv
    · exact henv.globals name v hv

end Context.Among

/-! ### Outcomes -/

section
variable {α β : Type} {E : TemplateError → Prop} {P : α → Prop} {Q : β → Prop}

/-- Ends with only known functions in the scopes: with a value of which `P` holds, or an error of which `E` does. -/
inductive Outcome.Traced (known : Known) (n : Nat) (E : TemplateError → Prop) (P : α → Prop) : Outcome α → Prop
  | done {v c} (hv : P v) (hc : c.Among known n) : Outcome.Traced known n E P (.done v c)
  | failed {e c} (he : E e) (hc : c.Among known n) : Outcome.Traced known n E P (.failed e c)
  | exhausted : Outcome.Traced known n E P .exhausted

/-- Evaluations that end so from all contexts whose scopes hold only known functions. -/
def Eval.Traced (known : Known) (n : Nat) (E : TemplateError → Prop) (P : α → Prop) (m : Eval α) : Prop :=
  ∀ c, c.Among known n → (m c).Traced known n E P

namespace Eval.Traced
variable {m : Eval α}

theorem pure {v : α} (hv : P v) : Eval.Traced known n E P (Eval.pure v) :=
  fun _ hc => .done hv hc

theorem fail {p : Position} {cause : Cause} (he : E ⟨p, cause⟩) : Eval.Traced known n E P (Eval.fail p cause) :=
  fun _ hc => .failed he hc

theorem located {p : Position} {r : Except Cause α} (hE : ∀ cause, E ⟨p, cause⟩) (hr : ∀ v, r = .ok v → P v) :
    Eval.Traced known n E P (Eval.located p r) := by
  cases r with
  | ok v => exact pure (hr v rfl)
  | error cause => exact fail (hE cause)

theorem update {f : Context → Context} (hf : ∀ c, c.Among known n → (f c).Among known n) :
    Eval.Traced known n E (fun _ => True) (Eval.update f) :=
  fun c hc => .done trivial (hf c hc)

theorem bindAt {f : α → Eval β} {c : Context} (ho : (m c).Traced known n E P)
    (hf : ∀ v, P v → Eval.Traced known n E Q (f v)) : (Eval.bind m f c).Traced known n E Q := by
  unfold Eval.bind
  generalize m c = o at ho
  cases ho with
  | done hv hd => exact hf _ hv _ hd
  | failed he hd => exact .failed he hd
  | exhausted => exact .exhausted

theorem bind {f : α → Eval β} (hm : Eval.Traced known n E P m) (hf : ∀ v, P v → Eval.Traced known n E Q (f v)) :
    Eval.Traced known n E Q (m >>= f) :=
  fun c hc => bindAt (hm c hc) hf

theorem andThen {f : Context → Context} {k : Nat} {c : Context} (ho : (m c).Traced known k E P)
    (hf : ∀ d, d.Among known k → (f d).Among known n) : (Eval.andThen m f c).Traced known n E P := by
  unfold Eval.andThen
  generalize m c = o at ho
  cases ho with
  | done hv hd => exact .done hv (hf _ hd)
  | failed he hd => exact .failed he (hf _ hd)
  | exhausted => exact .exhausted

theorem joinAll {f : α → Eval String} {as : List α} (hf : ∀ a ∈ as, Eval.Traced known n E (fun _ => True) (f a))
    (text : String) : Eval.Traced known n E (fun _ => True) (Eval.joinAll f text as) := by
  induction as generalizing text with
  | nil => exact pure trivial
  | cons a as ih =>
    obtain ⟨ha, has⟩ := List.forall_mem_cons.mp hf
    rw [joinAll_cons]
    exact bind ha fun s _ => ih has (text ++ s)

theorem inScope {env : Environment} (henv : env.Among known) (hm : Eval.Traced known n E P m) (parent : Nat) :
    Eval.Traced known n E P (Eval.inScope env parent m) := by
  intro c hc
  refine andThen (hm _ (hc.opening (some parent))) fun d hd => ?_
  rw [henv.release]
  exact Context.Among.release (c := { d with current := c.current }) (hd.of_eq rfl rfl) c.arena.length

theorem inChild {env : Environment} (henv : env.Among known) (hm : Eval.Traced known n E P m) :
    Eval.Traced known n E P (Eval.inChild env m) :=
  fun c hc => inScope henv hm c.current c hc

end Eval.Traced

end

/-! ### Imports and calls -/

/-- A way of rendering bodies that leaves only known functions in the scopes where a template of the library is imported,
    and where the body of a known macro is rendered below the limit, which then fails with errors of which `E` holds
    only. -/
structure Eval.Tracing (known : Known) (n : Nat) (E : TemplateError → Prop) (env : Environment)
    (enter : Body → Address → Eval String) : Prop where
  environment : env.Among known
  template : ∀ name t, env.library.get? name = some t →
    Eval.Traced known n (fun _ => True) (fun _ => True) (enter t.body ⟨.library t.name, []⟩)
  body : n < maxCallDepth → ∀ d ∈ known.macros, ∀ address,
    Eval.Traced known (n + 1) E (fun _ => True) (enter d.body address)

namespace Eval.Tracing
variable {E : TemplateError → Prop} {env : Environment} {enter : Body → Address → Eval String} {p : Position}
  (h : Eval.Tracing known n E env enter) (hE : ∀ cause, E ⟨p, cause⟩)
include h hE

/-- Whatever a template fails with, the import reports it where the name stands. -/
theorem importTemplate {name : String} {t : Template} (ht : env.library.get? name = some t) :
    Eval.Traced known n E (fun _ => True) (Eval.importTemplate enter t p) := by
  intro c hc
  unfold Eval.importTemplate
  split
  · exact .done trivial hc
  · have himporting : (c.importing t.name).Among known n := (hc.opening none).of_eq rfl rfl
    have hbody := h.template name t ht _ himporting
    refine Eval.Traced.bindAt (P := fun _ => True) (c := c.importing t.name) ?_ fun _ _ => .pure trivial
    unfold mapError Eval.andThen
    generalize enter t.body ⟨.library t.name, []⟩ (c.importing t.name) = o at hbody
    cases hbody with
    | done _ hd => exact .done trivial (hd.of_eq rfl rfl)
    | failed _ hd => exact .failed (hE _) (hd.of_eq rfl rfl)
    | exhausted => exact .exhausted

theorem readVariable (name : String) :
    Eval.Traced known n E (Value.Among known) (Eval.readVariable env enter name p) := by
  intro c hc
  unfold Eval.readVariable
  split
  · rename_i hlookup
    exact .done (hc.lookup h.environment hlookup) hc
  · split
    · exact .done Value.among_undefined hc
    · rename_i ht
      refine Eval.Traced.bind (h.importTemplate hE ht) (fun scope _ d hd => ?_) c hc
      exact .done (Value.among_getD fun v hv => hd.bound scope name v hv) hd

theorem perform {action : Action} (ha : action.Among known) :
    Eval.Traced known n E (Value.Among known) (Eval.perform env enter p action) := by
  induction ha with
  | finish hv => exact .pure hv
  | fail cause => exact .fail (hE cause)
  | log message _ ih => exact .bind (.update fun _ hc => hc.of_eq rfl rfl) fun _ _ => ih
  | read name _ ih => exact .bind (h.readVariable hE name) ih
  | bind name hv _ ih => exact .bind (.update fun _ hc => hc.bind hv name) fun _ _ => ih

theorem callMacro {d : MacroDef} (hd : d ∈ known.macros) (address : Address) (scope : Nat) {as : List Argument}
    (has : ∀ a ∈ as, a.value.Among known) :
    Eval.Traced known n E (Value.Among known) (Eval.callMacro env enter d address scope p as) := by
  intro c hc
  unfold Eval.callMacro
  split
  · exact .failed (hE _) hc
  · rename_i hdepth
    rw [hc.depth] at hdepth
    split
    · exact .failed (hE _) hc
    · rename_i bindings hb
      have hbindings : Eval.Traced known (n + 1) E (fun _ => True)
          (Eval.update fun c => bindings.foldl (fun c b => c.bind b.1 b.2) c) :=
        .update fun _ hd => hd.bindAll (MacroDef.among_of_bindArguments has hb)
      have hrendering := hbindings.bind fun _ _ => h.body (Nat.lt_of_not_le hdepth) d hd address
      have hcall : (Eval.andThen (Eval.inScope env scope _) (fun d => { d with depth := c.depth })
          { c with depth := c.depth + 1 }).Traced known n E fun _ => True :=
        Eval.Traced.andThen (hrendering.inScope h.environment scope _ hc.deeper) fun d hd => ⟨hd.bound, hc.depth⟩
      exact Eval.Traced.bindAt hcall fun text _ => .pure (Value.among_string text)

theorem call {f : Function} (hf : f.Among known) {as : List Argument} (has : ∀ a ∈ as, a.value.Among known) :
    Eval.Traced known n E (Value.Among known) (Eval.call env enter f p as) := by
  cases f with
  | defined d address scope => exact h.callMacro hE (Function.among_defined.mp hf) address scope has
  | _ => exact .inChild h.environment (h.perform hE (Eval.action_among h.environment.hosts p has hf))

end Eval.Tracing

end

end TemplatedSql
