import Mathlib
import TemplatedSql.Proofs.Session

/-! # Imports that fail

A template counts as imported from before its rendering, and a rendering that fails takes nothing back. Whoever
asks for one of its names again gets what the part before the error has bound, or an undefined value, and no
error. -/

namespace TemplatedSql

/-! ### Looking a name up among scopes that have not changed -/

/-- What binds nothing changes the value of no name that can be looked up. -/
theorem Environment.lookup_eq_of_frame {env : Environment} {c d : Context} (ho : c.Ordered) (h : Frame env ∅ c d)
    (name : String) : env.lookup d name = env.lookup c name := by
  obtain ⟨s, hs⟩ := Arena.isLive_iff.mp ho.current
  have hfind : c.arena.find? c.current name = d.arena.find? c.current name :=
    Arena.findFrom_eq ho.parent (fun _ _ => h.scope_of_empty) name ho.current (Arena.lt_length_of_scope? hs)
      (Arena.lt_length_of_scope? (h.scope_of_empty hs))
  rw [lookup, lookup, h.current, hfind]

/-! ### What a failed import leaves behind -/

namespace Eval

section
variable {α β : Type} {m : Eval α} {c d : Context} {e : TemplateError}

theorem bind_eq_failed {f : α → Eval β} (h : Eval.bind m f c = .failed e d) :
    m c = .failed e d ∨ ∃ v c', m c = .done v c' ∧ f v c' = .failed e d := by
  unfold Eval.bind at h
  cases hm : m c with
  | done v c' =>
    rw [hm] at h
    exact Or.inr ⟨v, c', rfl, h⟩
  | failed e' d' =>
    rw [hm] at h
    cases h
    exact Or.inl rfl
  | exhausted =>
    rw [hm] at h
    cases h

theorem andThen_eq_failed {f : Context → Context} (h : andThen m f c = .failed e d) :
    ∃ d', m c = .failed e d' ∧ d = f d' := by
  unfold andThen at h
  cases hm : m c with
  | failed e' d' =>
    rw [hm] at h
    cases h
    exact ⟨d', rfl, rfl⟩
  | _ =>
    rw [hm] at h
    cases h

theorem mapError_eq_failed {f : TemplateError → TemplateError} (h : mapError m f c = .failed e d) :
    ∃ e', m c = .failed e' d ∧ e = f e' := by
  unfold mapError at h
  cases hm : m c with
  | failed e' d' =>
    rw [hm] at h
    cases h
    exact ⟨e', rfl, rfl⟩
  | _ =>
    rw [hm] at h
    cases h

end

variable {env : Environment} {enter : Body → Address → Eval String} {t : Template} {name : String} {p : Position}
  {c d : Context} {e : TemplateError}

/-- An import fails where the rendering of the template does, and reports its error. -/
theorem importTemplate_eq_failed (h : importTemplate enter t p c = .failed e d) : c.imported.get? t.name = none ∧
    ∃ inner d', enter t.body ⟨.library t.name, []⟩ (c.importing t.name) = .failed inner d' ∧
      e = ⟨p, .runtime s!"in `{t.name}`: {inner.text}"⟩ ∧ d = { d' with current := c.current } := by
  unfold importTemplate at h
  cases hi : c.imported.get? t.name with
  | some scope =>
    rw [hi] at h
    cases h
  | none =>
    rw [hi] at h
    rcases bind_eq_failed h with hreported | ⟨text, c', -, hpure⟩
    · obtain ⟨inner, hrendering, he⟩ := mapError_eq_failed hreported
      obtain ⟨d', henter, hd⟩ := andThen_eq_failed hrendering
      exact ⟨rfl, inner, d', henter, he, hd⟩
    · cases hpure

/-- A variable cannot be read where it is none of the names in sight and its template fails. -/
theorem readVariable_eq_failed (h : readVariable env enter name p c = .failed e d) : env.lookup c name = none ∧
    ∃ t, env.library.get? name = some t ∧ importTemplate enter t p c = .failed e d := by
  unfold readVariable at h
  cases hlookup : env.lookup c name with
  | some v =>
    rw [hlookup] at h
    cases h
  | none =>
    rw [hlookup] at h
    cases ht : env.library.get? name with
    | none =>
      rw [ht] at h
      cases h
    | some t =>
      rw [ht] at h
      rcases bind_eq_failed h with himport | ⟨scope, c', -, hdone⟩
      · exact ⟨rfl, t, rfl, himport⟩
      · cases hdone

/-- A name that is looked up in the library is read from the root of its template, if that is imported. -/
theorem readVariable_of_imported {scope : Nat} (hlookup : env.lookup c name = none)
    (ht : env.library.get? name = some t) (hi : c.imported.get? t.name = some scope) :
    readVariable env enter name p c =
      .done (((c.arena.scope? scope).bind fun s => s.bindings.get? name).getD .undefined) c := by
  unfold readVariable importTemplate
  simp only [hlookup, ht, Eval.bind, hi]

end Eval

/-- A variable that cannot be read belongs to a template that was not imported and whose rendering fails, maybe in
    an import of its own. The error is reported once: from then on the template counts as imported, so its names,
    also the same one again, have the values that its root had at the error, or none. No other name changes its
    value. -/
theorem failed_import_stays_imported {env : Environment} (hr : env.discard = Context.release) {c d : Context}
    (ho : c.Ordered) {name : String} {p : Position} {e : TemplateError} (h : Session.get env name p c = .failed e d) :
    ∃ t inner d', env.library.get? name = some t ∧ c.imported.get? t.name = none ∧
      env.enter t.body ⟨.library t.name, []⟩ (c.importing t.name) = .failed inner d' ∧
      e = ⟨p, .runtime s!"in `{t.name}`: {inner.text}"⟩ ∧ d = { d' with current := c.current } ∧
      (∀ other, env.lookup d other = env.lookup c other) ∧
      ∃ s, d.imported.get? t.name = some c.arena.length ∧ d.arena.scope? c.arena.length = some s ∧ s.parent = none ∧
        (∀ q, Session.get env name q d = .done ((s.bindings.get? name).getD .undefined) d) ∧
        ∀ other u q, env.lookup d other = none → env.library.get? other = some u → u.name = t.name →
          Session.get env other q d = .done ((s.bindings.get? other).getD .undefined) d := by
  obtain ⟨hlookup, t, ht, himport⟩ := Eval.readVariable_eq_failed h
  obtain ⟨hnone, inner, d', henter, he, rfl⟩ := Eval.importTemplate_eq_failed himport
  have hf := Environment.forgets_release hr
  have hframe : Frame env Set.univ (c.importing t.name) d' := (env.enter_keeps hf _ _).frame (by rw [henter]; rfl)
  have hlookups := Environment.lookup_eq_of_frame ho (Frame.importRoot hnone hframe)
  have hi : d'.imported.get? t.name = some c.arena.length :=
    hframe.imported _ _ (c.imported_importing t.name)
  obtain ⟨s, hs, hroot⟩ := hframe.kept (Arena.scope?_push_length c.arena none)
  have hread : ∀ other u q, env.lookup { d' with current := c.current } other = none →
      env.library.get? other = some u → u.name = t.name → Session.get env other q { d' with current := c.current } =
        .done ((s.bindings.get? other).getD .undefined) { d' with current := c.current } := by
    intro other u q hother hu hname
    refine (Eval.readVariable_of_imported hother hu (hname ▸ hi)).trans ?_
    rw [hs]
    rfl
  exact ⟨t, inner, d', ht, hnone, henter, he, rfl, hlookups, s, hi, hs, hroot,
    fun q => hread name t q ((hlookups name).trans hlookup) ht rfl, hread⟩

/-- An import inside an import that fails: both templates count as imported, and asking again for either gives what
    it has bound, which is nothing for the outer one. -/
theorem failed_import_stays_imported_around_inner :
    let p : Position := ⟨1, 1⟩
    let inner : Template := ⟨"u", ⟨p, [.assign p "u" (.literal p (.boolean true)), .output p (.call p (.name p "nope") [])]⟩⟩
    let outer : Template := ⟨"t", ⟨p, [.output p (.name p "u"), .assign p "t" (.literal p (.boolean true))]⟩⟩
    let env : Environment := { library := [("t", outer), ("u", inner)] }
    env.discard = Context.release ∧ Context.initial.Ordered ∧ ∃ e d,
      Session.get env "t" p .initial = .failed e d ∧ Session.get env "t" p d = .done .undefined d ∧
        Session.get env "u" p d = .done (.boolean true) d := by
  intro p inner outer env
  obtain ⟨e, d, hfail⟩ : ∃ e d, Session.get env "t" p .initial = .failed e d := ⟨_, _, rfl⟩
  obtain ⟨t, error, d', ht, -, henter, -, rfl, -, s, -, hs, -, hagain, -⟩ :=
    failed_import_stays_imported rfl Context.Ordered.initial hfail
  cases ht
  cases henter
  cases hs
  exact ⟨rfl, Context.Ordered.initial, e, _, hfail, hagain p, rfl⟩

/-- A template with an error after a variable: the first time its name is asked for the error is reported, the
    second time the name has the value of the variable. -/
theorem failed_import_gives_half_of_template : ∃ body e d,
    Body.ofSource "\x7b% set t = true %\x7d\x7b\x7b nope() \x7d\x7d" = .ok body ∧
    Session.get { library := [("t", ⟨"t", body⟩)] } "t" ⟨1, 1⟩ .initial = .failed e d ∧
    Session.get { library := [("t", ⟨"t", body⟩)] } "t" ⟨1, 1⟩ d = .done (.boolean true) d := by
  have hbody : Body.ofSource "\x7b% set t = true %\x7d\x7b\x7b nope() \x7d\x7d" =
      .ok ⟨⟨1, 1⟩, [.assign ⟨1, 4⟩ "t" (.literal ⟨1, 12⟩ (.boolean true)),
        .output ⟨1, 19⟩ (.call ⟨1, 22⟩ (.name ⟨1, 22⟩ "nope") [])]⟩ := by cbv
  exact ⟨_, _, _, hbody, rfl, rfl⟩

end TemplatedSql
