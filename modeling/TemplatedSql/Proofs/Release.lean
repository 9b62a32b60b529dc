import TemplatedSql.Proofs.Alike.Render
import TemplatedSql.Proofs.Session

/-! # Giving scopes back cannot be observed

The slot of a scope whose block has ended is used again. No value that is in sight by then remembers the scope,
so a rendering has the same result whether the slot is given back, stays as it is, or is filled with something
else. -/

namespace TemplatedSql

/-- The value or the error that an evaluation ends with. -/
def Outcome.result? {α : Type} : Outcome α → Option (Except TemplateError α)
  | .done v _ => some (.ok v)
  | .failed e _ => some (.error e)
  | .exhausted => none

theorem Outcome.Alike.result?_eq {α : Type} {P : Context → Context → Prop} {o o' : Outcome α}
    (h : Outcome.Alike P (fun _ _ => Eq) o o') : o.result? = o'.result? := by
  cases h with
  | done _ hv => rw [Outcome.result?, Outcome.result?, hv]
  | failed e _ => rfl
  | exhausted => rfl

theorem Outcome.result?_isSome {α : Type} {o : Outcome α} {c : Context} (h : o.context? = some c) :
    ∃ r, o.result? = some r := by
  cases o with
  | done v _ => exact ⟨.ok v, rfl⟩
  | failed e _ => exact ⟨.error e, rfl⟩
  | exhausted => cases h

/-- The numbers of scopes may differ, those of marks are the same, and no scopes correspond from the start. -/
def scopesRenumbered : Correspondence :=
  ⟨.scopes, Eq, ⊥⟩

/-- A new context is in step with itself: its one scope corresponds to itself until the end. -/
theorem relatedAt_initial (given : Nat) :
    RelatedAt scopesRenumbered (.block ⊥ 0 0) { Context.initial with given } { Context.initial with given } := by
  have hdescends : Arena.Descends [] := by
    intro i s p hs
    cases hs
  have hlasting : ∀ i j, ¬scopesRenumbered.lasting { Context.initial with arena := [], given }
      { Context.initial with arena := [], given } i j := by
    rintro i j (hij | ⟨name, hi, -⟩)
    · exact hij
    · cases hi
  -- Its scope is the first that is put into an arena without any.
  have hempty : Related scopesRenumbered ⊥ { Context.initial with arena := [], given }
      { Context.initial with arena := [], given } :=
    { depth := rfl
      marks := fun _ => rfl
      shape := ⟨hdescends, hdescends⟩
      admits := by
        refine ⟨⟨fun i j l hi => ?_, fun i j l hj => ?_⟩, fun _ _ h => h⟩
        · exact (hi.elim id (hlasting i l)).elim
        · exact (hj.elim id (hlasting i j)).elim
      imported := fun _ => rfl
      lasting := fun i j hij => absurd hij (hlasting i j)
      frames := fun i j hij => hij.elim }
  exact (hempty.push .none).own (hlasting 0 0)

/-- Names that have no macros have values that are like themselves, whichever scopes correspond. -/
theorem Table.alike_self {t : Table Value} (ht : ∀ name v, t.get? name = some v → v.scopes = []) (name : String) :
    Option.Rel (Value.Alike ⊥ Eq) (t.get? name) (t.get? name) := by
  cases hv : t.get? name with
  | none => exact .none
  | some v =>
    refine .some (v.alike_self (fun _ => rfl) fun i hi => ?_)
    rw [ht name v hv] at hi
    cases hi

/-- Environments that differ in what becomes of scopes at most, and give no macros to names. -/
theorem Environment.alike_of_discard {env : Environment}
    (hglobals : ∀ name v, env.globals.get? name = some v → v.scopes = [])
    (hoverlay : ∀ name v, env.overlay.get? name = some v → v.scopes = [])
    (huniform : ∀ f ∈ env.hosts, f.Uniform .scopes) (hf : env.Forgets)
    {discard : Context → Nat → Context} (hf' : ({ env with discard } : Environment).Forgets) :
    env.Alike .scopes Eq { env with discard } where
  globals := Table.alike_self hglobals
  overlay := Table.alike_self hoverlay
  library := rfl
  hosts := rfl
  uniform := huniform
  forgets := hf
  forgets' := hf'
  release h := by cases h

/-- Releasing scopes cannot be observed. Where the names outside templates have no macros and native functions make
    their values from those they are given and those they read, rendering a template in a new context ends, and
    with the same text or the same error if no scope is ever given back, or if anything else is put into the slots
    of scopes whose blocks have ended. -/
theorem rendering_independent_of_release {env : Environment} (hr : env.discard = Context.release)
    (hglobals : ∀ name v, env.globals.get? name = some v → v.scopes = [])
    (hoverlay : ∀ name v, env.overlay.get? name = some v → v.scopes = [])
    (huniform : ∀ f ∈ env.hosts, f.Uniform .scopes) (body : Body) :
    ∃ r, (Session.render env body Context.initial).result? = some r ∧
      (Session.render { env with discard := fun c _ => c } body Context.initial).result? = some r ∧
      ∀ discard : Context → Nat → Context, ({ env with discard } : Environment).Forgets →
        (Session.render { env with discard } body Context.initial).result? = some r := by
  have hf := Environment.forgets_release hr
  have hsame : ∀ discard : Context → Nat → Context, ({ env with discard } : Environment).Forgets →
      (Session.render env body Context.initial).result? =
        (Session.render { env with discard } body Context.initial).result? := by
    intro discard hf'
    have henv := Environment.alike_of_discard hglobals hoverlay huniform hf hf'
    -- The one scope of a new context is current and corresponds to itself, so nothing else has to be in sight.
    have halike := renderBody_alike (k := scopesRenumbered) henv env.allowance (.block ⊥ 0 0) ⊥ body ⟨.given 0, []⟩
      (Or.inl (Or.inr ⟨rfl, rfl⟩))
    exact (halike _ _ (relatedAt_initial 1) bot_le).result?_eq
  obtain ⟨d, hd⟩ := (Session.render_keeps hf body).ends (Nat.lt_succ_of_lt (env.room_lt_allowance Context.initial))
  obtain ⟨r, hresult⟩ := Outcome.result?_isSome hd
  refine ⟨r, hresult, ?_, fun discard hf' => ?_⟩
  · rw [← hsame _ (Environment.forgets_keep rfl), hresult]
  · rw [← hsame discard hf', hresult]

/-- A loop whose rounds define a macro in the scope of the loop, pass it through a native function and call it
    inside the scope of a template that is imported there. -/
theorem rendering_independent_of_release_in_loop :
    let p : Position := ⟨1, 1⟩
    let echo : HostFunction :=
      ⟨"echo", fun _ arguments => .finish ((Argument.find? arguments 0 "value").getD .undefined)⟩
    let apply : MacroDef := ⟨p, "lib", [⟨"f", none⟩], ⟨p, [.output p (.call p (.name p "f") [])]⟩⟩
    let lib : Template := ⟨"lib", ⟨p, [.macroDef apply]⟩⟩
    let env : Environment :=
      { globals := [("echo", .function (.host 0 "echo"))], library := [("lib", lib)], hosts := [echo] }
    let body : Body := ⟨p, [.loop p (.one "x") (.list p [.literal p (.string "a"), .literal p (.string "b")]) ⟨p,
      [.macroDef ⟨p, "m", [], ⟨p, [.output p (.name p "x")]⟩⟩,
        .output p (.call p (.name p "lib") [⟨none, .call p (.name p "echo") [⟨none, .name p "m"⟩]⟩])]⟩]⟩
    env.discard = Context.release ∧ (∀ f ∈ env.hosts, f.Uniform .scopes) ∧
      (Session.render env body Context.initial).result? = some (.ok "ab") ∧
      (Session.render { env with discard := fun c _ => c } body Context.initial).result? = some (.ok "ab") := by
  intro p echo apply lib env body
  have huniform : ∀ f ∈ env.hosts, f.Uniform .scopes := by
    intro f hf S M p as bs _ h
    cases List.mem_singleton.mp hf
    exact .finish ((Argument.find?_alike h 0 "value").getD .undefined)
  have hglobals : ∀ name v, env.globals.get? name = some v → v.scopes = [] := by
    intro name v hv
    rw [show env.globals = [("echo", .function (.host 0 "echo"))] from rfl, Table.get?_cons] at hv
    split at hv
    · cases hv
      rfl
    · cases hv
  have hr : env.discard = Context.release := rfl
  obtain ⟨r, hrelease, hkeep, -⟩ :=
    rendering_independent_of_release hr hglobals (fun _ _ h => by cases h) huniform body
  have htext : (Session.render env body Context.initial).result? = some (.ok "ab") := by
    decide +kernel
  exact ⟨hr, huniform, htext, hkeep.trans (hrelease.symm.trans htext)⟩

end TemplatedSql
