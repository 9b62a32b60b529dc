import TemplatedSql.Proofs.Evaluation
import TemplatedSql.Proofs.Relocation.Call

/-! # Evaluations of moved trees

An evaluation of a moved tree, from a context whose macros are moved, ends as that of the tree does: with the same
value up to moved macros, or with an error as well, at a place that the moves lead to. -/

namespace TemplatedSql

/-! ### Contexts -/

def Scope.relocate (h : Position → Position) (s : Scope) : Scope :=
  { s with bindings := Value.relocateEntries h s.bindings }

/-- The arena with the macros in all scopes moved. -/
def Arena.relocate (h : Position → Position) (arena : Arena) : Arena :=
  List.map (Option.map (Scope.relocate h)) arena

/-- Contexts that differ in the places in macros and in the places of logged messages only. -/
structure Context.Relocated (h : Position → Position) (c c' : Context) : Prop where
  arena : c'.arena = c.arena.relocate h
  current : c'.current = c.current
  imported : c'.imported = c.imported
  depth : c'.depth = c.depth
  accesses : c'.accesses = c.accesses
  given : c'.given = c.given
  logs : c'.logs.toList.map Prod.snd = c.logs.toList.map Prod.snd

section
variable {h : Position → Position}

namespace Table

theorem get?_relocateEntries (t : Table Value) (name : String) :
    get? (Value.relocateEntries h t) name = (get? t name).map (Value.relocate h) :=
  Value.lookup_relocateEntries h t name

theorem set_relocateEntries (t : Table Value) (name : String) (v : Value) :
    set (Value.relocateEntries h t) name (v.relocate h) = Value.relocateEntries h (set t name v) := by
  induction t with
  | nil => rfl
  | cons e t ih =>
    obtain ⟨k, w⟩ := e
    simp only [Value.relocateEntries, set, ih]
    split <;> rfl

end Table

namespace Arena
variable (arena : Arena)

@[simp] theorem length_relocate : (arena.relocate h).length = arena.length :=
  List.length_map _

theorem scope?_relocate (i : Nat) : (arena.relocate h).scope? i = (arena.scope? i).map (Scope.relocate h) := by
  rw [scope?, scope?, relocate, List.getElem?_map]
  rcases arena[i]? with _ | _ | s <;> rfl

theorem push_relocate (parent : Option Nat) : (arena.relocate h).push parent = (arena.push parent).relocate h := by
  simp [push, relocate, Scope.relocate]

theorem bind_relocate (i : Nat) (name : String) (v : Value) :
    (arena.relocate h).bind i name (v.relocate h) = (arena.bind i name v).relocate h := by
  rw [bind, bind, scope?_relocate]
  cases arena.scope? i with
  | none => rfl
  | some s =>
    simp only [Option.map_some, relocate, List.map_set, Scope.relocate, Table.set_relocateEntries]

theorem trim_relocate : (arena.relocate h).trim = arena.trim.relocate h := by
  have hnone : (Option.isNone ∘ Option.map (Scope.relocate h)) = Option.isNone := by
    funext o
    exact Option.isNone_map
  rw [trim, trim, relocate, relocate, ← List.map_reverse, List.dropWhile_map, hnone, List.map_reverse]

theorem release_relocate (i : Nat) : (arena.relocate h).release i = (arena.release i).relocate h := by
  rw [release, release, ← trim_relocate, relocate, relocate, List.map_set]
  rfl

theorem findFrom_relocate (name : String) (fuel i : Nat) :
    (arena.relocate h).findFrom name fuel i = (arena.findFrom name fuel i).map (Value.relocate h) := by
  induction fuel generalizing i with
  | zero => rfl
  | succ fuel ih =>
    rw [findFrom, findFrom, scope?_relocate]
    cases arena.scope? i with
    | none => rfl
    | some s =>
      simp only [Option.map_some, Scope.relocate, Table.get?_relocateEntries]
      cases s.bindings.get? name with
      | some v => rfl
      | none => cases s.parent with
        | none => rfl
        | some j => exact ih j

theorem find?_relocate (i : Nat) (name : String) :
    (arena.relocate h).find? i name = (arena.find? i name).map (Value.relocate h) := by
  rw [find?, find?, findFrom_relocate, length_relocate]

end Arena

namespace Context.Relocated
variable {c c' : Context}

theorem bind (hc : c.Relocated h c') (name : String) (v : Value) :
    (c.bind name v).Relocated h (c'.bind name (v.relocate h)) := by
  refine ⟨?_, hc.current, hc.imported, hc.depth, hc.accesses, hc.given, hc.logs⟩
  simp only [Context.bind, hc.arena, hc.current, Arena.bind_relocate]

theorem bindAll (hc : c.Relocated h c') (bindings : Table Value) :
    (bindings.foldl (fun c b => c.bind b.1 b.2) c).Relocated h
      ((Value.relocateEntries h bindings).foldl (fun c b => c.bind b.1 b.2) c') := by
  induction bindings generalizing c c' with
  | nil => exact hc
  | cons b bindings ih => exact ih (hc.bind b.1 b.2)

theorem release (hc : c.Relocated h c') (scope : Nat) : (c.release scope).Relocated h (c'.release scope) := by
  refine ⟨?_, hc.current, hc.imported, hc.depth, hc.accesses, hc.given, hc.logs⟩
  simp only [Context.release, hc.arena, Arena.release_relocate]

end Context.Relocated

/-! ### Outcomes -/

section
variable {α β γ : Type} {K K' : Position → Position → Prop} {r : α → α} {s : β → β}

/-- Ends of the same kind: a value and its image, or errors at places that correspond. -/
inductive Outcome.Relocated (h : Position → Position) (K : Position → Position → Prop) (r : α → α) :
    Outcome α → Outcome α → Prop
  | done {c c'} (v : α) (hc : c.Relocated h c') : Outcome.Relocated h K r (.done v c) (.done (r v) c')
  | failed {e e' c c'} (he : K e.position e'.position) (hc : c.Relocated h c') :
    Outcome.Relocated h K r (.failed e c) (.failed e' c')
  | exhausted : Outcome.Relocated h K r .exhausted .exhausted

theorem Outcome.Relocated.done_iff {o o' : Outcome α} (ho : Outcome.Relocated h K id o o') (v : α) :
    (∃ d, o = .done v d) ↔ ∃ d, o' = .done v d := by
  cases ho with
  | done w hc =>
    constructor
    · rintro ⟨d, heq⟩
      cases heq
      exact ⟨_, rfl⟩
    · rintro ⟨d, heq⟩
      cases heq
      exact ⟨_, rfl⟩
  | failed he hc => simp
  | exhausted => simp

/-- Evaluations that end alike from contexts that differ in places only. -/
def Eval.Relocated (h : Position → Position) (K : Position → Position → Prop) (r : α → α) (m m' : Eval α) : Prop :=
  ∀ c c', c.Relocated h c' → Outcome.Relocated h K r (m c) (m' c')

namespace Eval.Relocated
variable {m m' : Eval α}

theorem pure (v : α) : Eval.Relocated h K r (Eval.pure v) (Eval.pure (r v)) :=
  fun _ _ hc => .done v hc

theorem fail {p q : Position} (hpq : K p q) (cause cause' : Cause) :
    Eval.Relocated h K r (Eval.fail p cause) (Eval.fail q cause') :=
  fun _ _ hc => .failed hpq hc

theorem located {p q : Position} (hpq : K p q) {a b : Except Cause α} (hab : b = a.map r) :
    Eval.Relocated h K r (Eval.located p a) (Eval.located q b) := by
  subst hab
  cases a with
  | ok v => exact pure v
  | error cause => exact fail hpq cause cause

theorem update {f f' : Context → Context} (hf : ∀ c c', c.Relocated h c' → (f c).Relocated h (f' c')) :
    Eval.Relocated h K id (Eval.update f) (Eval.update f') :=
  fun c c' hc => .done () (hf c c' hc)

theorem bindAt {f f' : α → Eval β} {c c' : Context} (ho : Outcome.Relocated h K r (m c) (m' c'))
    (hf : ∀ v, Eval.Relocated h K s (f v) (f' (r v))) :
    Outcome.Relocated h K s (Eval.bind m f c) (Eval.bind m' f' c') := by
  unfold Eval.bind
  generalize m c = o at ho
  generalize m' c' = o' at ho
  cases ho with
  | done v hd => exact hf v _ _ hd
  | failed he hd => exact .failed he hd
  | exhausted => exact .exhausted

theorem bind {f f' : α → Eval β} (hm : Eval.Relocated h K r m m') (hf : ∀ v, Eval.Relocated h K s (f v) (f' (r v))) :
    Eval.Relocated h K s (m >>= f) (m' >>= f') :=
  fun c c' hc => bindAt (hm c c' hc) hf

theorem andThen {f f' : Context → Context} {c c' : Context} (ho : Outcome.Relocated h K r (m c) (m' c'))
    (hf : ∀ d d', d.Relocated h d' → (f d).Relocated h (f' d')) :
    Outcome.Relocated h K r (Eval.andThen m f c) (Eval.andThen m' f' c') := by
  unfold Eval.andThen
  generalize m c = o at ho
  generalize m' c' = o' at ho
  cases ho with
  | done v hd => exact .done v (hf _ _ hd)
  | failed he hd => exact .failed he (hf _ _ hd)
  | exhausted => exact .exhausted

theorem mapError {f f' : TemplateError → TemplateError} {c c' : Context}
    (ho : Outcome.Relocated h K r (m c) (m' c')) (hf : ∀ e e', K' (f e).position (f' e').position) :
    Outcome.Relocated h K' r (Eval.mapError m f c) (Eval.mapError m' f' c') := by
  unfold Eval.mapError
  generalize m c = o at ho
  generalize m' c' = o' at ho
  cases ho with
  | done v hd => exact .done v hd
  | failed _ hd => exact .failed (hf _ _) hd
  | exhausted => exact .exhausted

theorem bindAll (bindings : Table Value) :
    Eval.Relocated h K id (Eval.update fun c => bindings.foldl (fun c b => c.bind b.1 b.2) c)
      (Eval.update fun c => (Value.relocateEntries h bindings).foldl (fun c b => c.bind b.1 b.2) c) :=
  update fun _ _ hc => hc.bindAll bindings

theorem joinAll {f f' : γ → Eval String} {t : γ → γ} (hf : ∀ a, Eval.Relocated h K id (f a) (f' (t a)))
    (text : String) (as : List γ) :
    Eval.Relocated h K id (Eval.joinAll f text as) (Eval.joinAll f' text (as.map t)) := by
  induction as generalizing text with
  | nil => exact pure text
  | cons a as ih =>
    rw [List.map_cons, joinAll_cons, joinAll_cons]
    exact bind (hf a) fun more => ih (text ++ more)

/-- The rounds of a loop. -/
theorem rounds {m m' : Eval String} (hm : Eval.Relocated h K id m m') (rounds : List (Table Value)) :
    Eval.Relocated h K id
      (Eval.joinAll
        (fun (bindings, round) => do
          Eval.update fun c => bindings.foldl (fun c b => c.bind b.1 b.2) c
          Eval.update fun c => c.bind "loop" (loopInfo round rounds.length)
          m)
        "" rounds.zipIdx)
      (Eval.joinAll
        (fun (bindings, round) => do
          Eval.update fun c => bindings.foldl (fun c b => c.bind b.1 b.2) c
          Eval.update fun c => c.bind "loop" (loopInfo round (rounds.map (Value.relocateEntries h)).length)
          m')
        "" (rounds.map (Value.relocateEntries h)).zipIdx) := by
  rw [List.length_map, List.zipIdx_map]
  refine joinAll (fun a => ?_) "" rounds.zipIdx
  refine bind (bindAll a.1) fun _ => bind (update fun c c' hc => ?_) fun _ => hm
  exact hc.bind "loop" (loopInfo a.2 rounds.length)

end Eval.Relocated

end

/-! ### Scopes, imports and calls -/

/-- The environment with the places in its templates moved by `g`, but those in macros by `h`. -/
def Environment.relocate (h g : Position → Position) (env : Environment) : Environment :=
  { env with
    globals := Value.relocateEntries h env.globals
    overlay := Value.relocateEntries h env.overlay
    library := env.library.map fun e => (e.1, ⟨e.2.name, e.2.body.relocate h g⟩) }

/-- An environment in which scopes are given back and native functions take no notice of places. -/
structure Environment.Placeless (env : Environment) : Prop where
  release : env.discard = Context.release
  hosts : ∀ f ∈ env.hosts, f.Placeless

section
variable {env : Environment} {h g : Position → Position} {K : Position → Position → Prop}
  {enter enter' : Body → Address → Eval String}

theorem Environment.lookup_relocate {c c' : Context} (hc : c.Relocated h c') (name : String) :
    (env.relocate h g).lookup c' name = (env.lookup c name).map (Value.relocate h) := by
  rw [lookup, lookup, hc.arena, hc.current, Arena.find?_relocate, relocate, Table.get?_relocateEntries,
    Table.get?_relocateEntries]
  cases c.arena.find? c.current name with
  | some v => rfl
  | none => cases env.overlay.get? name <;> rfl

theorem Environment.library_relocate (name : String) : (env.relocate h g).library.get? name =
    (env.library.get? name).map fun t => ⟨t.name, t.body.relocate h g⟩ := by
  rw [relocate]
  induction env.library with
  | nil => rfl
  | cons e library ih =>
    rw [List.map_cons, Table.get?_cons, Table.get?_cons, ih]
    split <;> rfl

/-- Bodies are rendered alike wherever errors at the places in them, and those in macros, correspond. -/
def EntersAlike (h : Position → Position) (enter enter' : Body → Address → Eval String) : Prop :=
  ∀ (K : Position → Position → Prop) g body address, (∀ p, K p (g p)) → (∀ p, K p (h p)) →
    Eval.Relocated h K id (enter body address) (enter' (body.relocate h g) address)

theorem Eval.inScope_relocated {α : Type} {r : α → α} (hrelease : env.discard = Context.release) {m m' : Eval α}
    (hm : Eval.Relocated h K r m m') (parent : Nat) :
    Eval.Relocated h K r (Eval.inScope env parent m) (Eval.inScope (env.relocate h g) parent m') := by
  intro c c' hc
  have hlength : c'.arena.length = c.arena.length := by rw [hc.arena, Arena.length_relocate]
  have hopen : Context.Relocated h { c with arena := c.arena.push (some parent), current := c.arena.length }
      { c' with arena := c'.arena.push (some parent), current := c'.arena.length } :=
    { hc with
      arena := by rw [hc.arena, Arena.push_relocate]
      current := hlength }
  refine Relocated.andThen (hm _ _ hopen) fun d d' hd => ?_
  rw [hlength, hc.current]
  have hback : Context.Relocated h { d with current := c.current } { d' with current := c.current } :=
    { hd with current := rfl }
  simp only [Environment.relocate, hrelease]
  exact hback.release _

theorem Eval.inChild_relocated {α : Type} {r : α → α} (hrelease : env.discard = Context.release) {m m' : Eval α}
    (hm : Eval.Relocated h K r m m') :
    Eval.Relocated h K r (Eval.inChild env m) (Eval.inChild (env.relocate h g) m') := by
  intro c c' hc
  unfold Eval.inChild
  rw [hc.current]
  exact inScope_relocated hrelease hm c.current c c' hc

section
variable (henter : EntersAlike h enter enter')
include henter

theorem Eval.importTemplate_relocated (t : Template) {p q : Position} (hpq : K p q) :
    Eval.Relocated h K id (Eval.importTemplate enter t p)
      (Eval.importTemplate enter' ⟨t.name, t.body.relocate h g⟩ q) := by
  intro c c' hc
  unfold Eval.importTemplate
  rw [hc.imported]
  cases c.imported.get? t.name with
  | some scope => exact .done scope hc
  | none =>
    have hlength : c'.arena.length = c.arena.length := by rw [hc.arena, Arena.length_relocate]
    have hopen : Context.Relocated h
        { c with arena := c.arena.push none, current := c.arena.length, imported := c.imported.set t.name c.arena.length }
        { c' with
          arena := c'.arena.push none, current := c'.arena.length,
          imported := c.imported.set t.name c'.arena.length } :=
      { hc with
        arena := by rw [hc.arena, Arena.push_relocate]
        current := hlength
        imported := by rw [hlength] }
    have hrendering := henter (fun _ _ => True) g t.body ⟨.library t.name, []⟩ (fun _ => trivial) (fun _ => trivial)
    have hback {d d' : Context} (hd : d.Relocated h d') :
        Context.Relocated h { d with current := c.current } { d' with current := c'.current } :=
      { hd with current := hc.current }
    rw [hlength] at hopen ⊢
    -- The error is reported at the place of the name, wherever it came up in the template.
    exact Relocated.bindAt (r := id) (Relocated.mapError (Relocated.andThen (hrendering _ _ hopen) fun _ _ => hback)
      fun _ _ => hpq) fun _ => Relocated.pure c.arena.length

theorem Eval.readVariable_relocated (name : String) {p q : Position} (hpq : K p q) :
    Eval.Relocated h K (Value.relocate h) (Eval.readVariable env enter name p)
      (Eval.readVariable (env.relocate h g) enter' name q) := by
  intro c c' hc
  unfold Eval.readVariable
  rw [Environment.lookup_relocate hc, Environment.library_relocate]
  cases env.lookup c name with
  | some v => exact .done v hc
  | none =>
    cases env.library.get? name with
    | none => exact .done Value.undefined hc
    | some t =>
      refine Relocated.bindAt (Eval.importTemplate_relocated henter t hpq c c' hc) fun scope d d' hd => ?_
      have hvalue : ((d'.arena.scope? scope).bind fun s => s.bindings.get? name).getD .undefined =
          (((d.arena.scope? scope).bind fun s => s.bindings.get? name).getD .undefined).relocate h := by
        rw [hd.arena, Arena.scope?_relocate]
        cases d.arena.scope? scope with
        | none => rfl
        | some s =>
          simp only [Option.map_some, Option.bind_some, Scope.relocate, Table.get?_relocateEntries]
          cases s.bindings.get? name <;> rfl
      simp only [id_eq, hvalue]
      exact .done _ hd

theorem Eval.perform_relocated {p q : Position} (hpq : K p q) {a b : Action} (hab : Action.Relocated h a b) :
    Eval.Relocated h K (Value.relocate h) (Eval.perform env enter p a)
      (Eval.perform (env.relocate h g) enter' q b) := by
  induction hab with
  | finish v => exact Relocated.pure v
  | fail cause => exact Relocated.fail hpq cause cause
  | log message next ih =>
    refine Relocated.bind (Relocated.update fun c c' hc => { hc with logs := ?_ }) fun _ => ih
    simp [hc.logs]
  | read name next ih => exact Relocated.bind (Eval.readVariable_relocated henter name hpq) ih
  | bind name v next ih => exact Relocated.bind (Relocated.update fun c c' hc => hc.bind name v) fun _ => ih

variable (hh : ∀ p, K p (h p))
include hh

theorem Eval.callMacro_relocated (hrelease : env.discard = Context.release) (d : MacroDef) (address : Address)
    (scope : Nat) {p q : Position} (hpq : K p q) (as : List Argument) :
    Eval.Relocated h K (Value.relocate h) (Eval.callMacro env enter d address scope p as)
      (Eval.callMacro (env.relocate h g) enter' (d.relocate h) address scope q (as.map (Argument.relocate h))) := by
  intro c c' hc
  unfold Eval.callMacro
  rw [hc.depth, MacroDef.bindArguments_relocate]
  split
  · exact .failed hpq hc
  · cases d.bindArguments as with
    | error cause => exact .failed hpq hc
    | ok bindings =>
      have hbody := henter K h d.body address hh hh
      rw [← MacroDef.body_relocate] at hbody
      have hrendering : Eval.Relocated h K id
          (do
            update fun c => bindings.foldl (fun c b => c.bind b.1 b.2) c
            enter d.body address)
          (do
            update fun c => (Value.relocateEntries h bindings).foldl (fun c b => c.bind b.1 b.2) c
            enter' (d.relocate h).body address) :=
        Relocated.bind (Relocated.bindAll bindings) fun _ => hbody
      have hdeeper : Context.Relocated h { c with depth := c.depth + 1 } { c' with depth := c.depth + 1 } :=
        { hc with depth := rfl }
      have hreset {d d' : Context} (hd : d.Relocated h d') :
          Context.Relocated h { d with depth := c.depth } { d' with depth := c.depth } :=
        { hd with depth := rfl }
      exact Relocated.bindAt (s := Value.relocate h)
        (Relocated.andThen (Eval.inScope_relocated (g := g) hrelease hrendering scope _ _ hdeeper) fun _ _ => hreset)
        fun text => Relocated.pure (Value.string text)

theorem Eval.call_relocated (hplaceless : env.Placeless) (f : Function) {p q : Position} (hpq : K p q)
    (as : List Argument) :
    Eval.Relocated h K (Value.relocate h) (Eval.call env enter f p as)
      (Eval.call (env.relocate h g) enter' (f.relocate h) q (as.map (Argument.relocate h))) := by
  have haction : Action.Relocated h (action env p as f)
      (action (env.relocate h g) q (as.map (Argument.relocate h)) (f.relocate h)) :=
    Eval.action_relocated rfl hplaceless.hosts h p q as f
  have hnative : Eval.Relocated h K (Value.relocate h) (inChild env (perform env enter p (action env p as f)))
      (inChild (env.relocate h g) (perform (env.relocate h g) enter' q
        (action (env.relocate h g) q (as.map (Argument.relocate h)) (f.relocate h)))) :=
    Eval.inChild_relocated hplaceless.release (Eval.perform_relocated henter hpq haction)
  cases f with
  | defined d address scope => exact Eval.callMacro_relocated henter hh hplaceless.release d address scope hpq as
  | _ => exact hnative

end

end

end

end TemplatedSql
