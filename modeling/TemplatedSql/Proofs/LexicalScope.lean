import Mathlib.Data.Set.Insert
import TemplatedSql.Proofs.Alike.Render
import TemplatedSql.Proofs.Session

/-! # Macros are lexically scoped

What a macro renders depends on the scope that it was defined in, on its arguments and on what these remember, never
on the scopes that it is called in. Two contexts may differ in everything else: a call ends alike in both. -/

namespace TemplatedSql

namespace Arena
variable {a b : Arena} {i : Nat} {s : Scope}

/-- Arenas of the same layout hold scopes with the same parents in the same slots. -/
theorem scope?_of_layout_eq (h : a.layout = b.layout) (hs : a.scope? i = some s) :
    ∃ t, b.scope? i = some t ∧ t.parent = s.parent := by
  have hslot : a[i]? = some (some s) := Option.join_eq_some_iff.mp hs
  have hmap : (List.map (Option.map Scope.parent) b)[i]? = some (some s.parent) := by
    show b.layout[i]? = _
    rw [← h, layout, List.getElem?_map, hslot]
    rfl
  rw [List.getElem?_map] at hmap
  obtain ⟨slot, hb, hslot'⟩ := Option.map_eq_some_iff.mp hmap
  obtain ⟨t, rfl, ht⟩ := Option.map_eq_some_iff.mp hslot'
  exact ⟨t, Option.join_eq_some_iff.mpr hb, ht⟩

end Arena

/-- The roots of the templates that are imported in `d` and were not in `c`. -/
def Context.importedSince (c d : Context) : Set Nat :=
  {i | ∃ name, c.imported.get? name = none ∧ d.imported.get? name = some i}

/-- A set of live scopes that holds every imported root and, with a scope, its parent and the scopes of the macros
    bound in it, also inside other values. -/
structure Context.Closed (R : Set Nat) (c : Context) : Prop where
  live : ∀ i ∈ R, c.arena.isLive i = true
  parent : ∀ i s p, i ∈ R → c.arena.scope? i = some s → s.parent = some p → p ∈ R
  imported : ∀ name i, c.imported.get? name = some i → i ∈ R
  bound : ∀ i s name v, i ∈ R → c.arena.scope? i = some s → s.bindings.get? name = some v → ∀ j ∈ v.scopes, j ∈ R

/-- Contexts with the same layout, depth and imported templates whose bindings agree on the scopes of a set, up to a
    correspondence of the marks of methods that also relates the marks still to be given. -/
structure Context.AgreeOn (R : Set Nat) (marks : Nat → Nat → Prop) (c c' : Context) : Prop where
  layout : c.arena.layout = c'.arena.layout
  depth : c'.depth = c.depth
  imported : ∀ name, c'.imported.get? name = c.imported.get? name
  accesses : ∀ n, marks (c.accesses + n) (c'.accesses + n)
  bindings : ∀ i s t, i ∈ R → c.arena.scope? i = some s → c'.arena.scope? i = some t →
    ∀ name, Option.Rel (Value.Alike Eq marks) (s.bindings.get? name) (t.bindings.get? name)

/-- The scopes of a set correspond to themselves, by the marks of two contexts. -/
def agreement (R : Set Nat) (marks : Nat → Nat → Prop) : Correspondence :=
  ⟨.marks, marks, fun i j => i = j ∧ i ∈ R⟩

section
variable {R : Set Nat} {marks : Nat → Nat → Prop} {c c' : Context}

/-- What contexts agree on is in step. -/
theorem Context.AgreeOn.related (h : Context.AgreeOn R marks c c') (hclosed : c.Closed R)
    (hmarks : Relator.BiUnique marks) : Related (agreement R marks) ⊥ c c' := by
  have hlasting : ∀ i j, (agreement R marks).lasting c c' i j → i = j ∧ i ∈ R := by
    rintro i j (hij | ⟨name, hi, hj⟩)
    · exact hij
    · rw [h.imported, hi] at hj
      cases hj
      exact ⟨rfl, hclosed.imported name i hi⟩
  exact
    { depth := h.depth
      marks := h.accesses
      shape := h.layout
      admits := ⟨fun i j hij => (hlasting i j (hij.elim False.elim id)).1, hmarks⟩
      imported := fun name => by rw [h.imported]
      -- This is what the set is closed for: parents and remembered scopes correspond to themselves too.
      lasting := fun i j hij => by
        obtain ⟨rfl, hi⟩ := hlasting i j hij
        obtain ⟨s, hs⟩ := Arena.isLive_iff.mp (hclosed.live i hi)
        obtain ⟨t, ht, hparent⟩ := Arena.scope?_of_layout_eq h.layout hs
        refine ⟨s, t, hs, ht, ?_, fun name => ?_⟩
        · rw [hparent]
          cases hp : s.parent with
          | none => exact .none
          | some p => exact .some (Or.inl ⟨rfl, hclosed.parent i s p hi hs hp⟩)
        · rcases (h.bindings i s t hi hs ht name).eq_or with ⟨hv, hw⟩ | ⟨v, w, hv, hw, hvw⟩
          · rw [hv, hw]
            exact .none
          · rw [hv, hw]
            refine .some (v.alike_imp hvw fun j hj l hl => Or.inl ⟨hl, ?_⟩)
            exact hclosed.bound i s name v hi hs hv j hj
      frames := fun i j hij => hij.elim }

/-- The other way round, contexts agree on what is in step, and on the roots imported meanwhile. -/
theorem Context.AgreeOn.of_related {e e' : Context} (hclosed : c.Closed R)
    (himported : ∀ name i, c.imported.get? name = some i → e.imported.get? name = some i)
    (h : Related (agreement R marks) ⊥ e e') :
    e.Closed (R ∪ c.importedSince e) ∧ Context.AgreeOn (R ∪ c.importedSince e) marks e e' := by
  have heq : ∀ i j, (agreement R marks).lasting e e' i j → i = j := fun i j hij => h.admits.1 i j (Or.inr hij)
  have hboth : ∀ name i, e.imported.get? name = some i → e'.imported.get? name = some i := by
    intro name i hi
    have hname := h.imported name
    rw [hi] at hname
    obtain ⟨j, hj⟩ := Option.isSome_iff_exists.mp hname.symm
    rw [hj, heq i j (Or.inr ⟨name, hi, hj⟩)]
  have hmem : ∀ i j, (agreement R marks).lasting e e' i j → i ∈ R ∪ c.importedSince e := by
    rintro i j (hij | ⟨name, hi, -⟩)
    · exact Or.inl hij.2
    · cases hc : c.imported.get? name with
      | none => exact Or.inr ⟨name, hc, hi⟩
      | some l =>
        rw [himported name l hc] at hi
        cases hi
        exact Or.inl (hclosed.imported name _ hc)
  have halike : ∀ i ∈ R ∪ c.importedSince e,
      Arena.AlikeAt ((agreement R marks).lasting e e') marks e.arena e'.arena i i := by
    rintro i (hi | ⟨name, -, hi⟩)
    · exact h.lasting i i (Or.inl ⟨rfl, hi⟩)
    · exact h.lasting i i (Or.inr ⟨name, hi, hboth name i hi⟩)
  constructor
  · exact
      { live := fun i hi => by
          obtain ⟨s, -, hs, -⟩ := halike i hi
          exact Arena.isLive_of_scope? hs
        parent := fun i s p hi hs hp => by
          obtain ⟨s', t, hs', -, hparent, -⟩ := halike i hi
          rw [hs] at hs'
          cases hs'
          rcases hparent.eq_or with ⟨hnone, -⟩ | ⟨p', q, hp', -, hpq⟩
          · rw [hp] at hnone
            cases hnone
          · rw [hp] at hp'
            cases hp'
            exact hmem p q hpq
        imported := fun name i hi => hmem i i (Or.inr ⟨name, hi, hboth name i hi⟩)
        bound := fun i s name v hi hs hv j hj => by
          obtain ⟨s', t, hs', -, -, hbindings⟩ := halike i hi
          rw [hs] at hs'
          cases hs'
          rcases (hbindings name).eq_or with ⟨hnone, -⟩ | ⟨v', w, hv', -, hvw⟩
          · rw [hv] at hnone
            cases hnone
          · rw [hv] at hv'
            cases hv'
            obtain ⟨l, hl⟩ := v.exists_of_mem_scopes hvw j hj
            exact hmem j l hl }
  · exact
      { layout := h.shape
        depth := h.depth
        imported := fun name => by
          have hname := h.imported name
          cases hi : e.imported.get? name with
          | some i => exact hboth name i hi
          | none =>
            rw [hi] at hname
            exact Option.isNone_iff_eq_none.mp (Option.isSome_eq_false_iff.mp hname.symm)
        accesses := h.marks
        bindings := fun i s t hi hs ht name => by
          obtain ⟨s', t', hs', ht', -, hbindings⟩ := halike i hi
          rw [hs] at hs'
          rw [ht] at ht'
          cases hs'
          cases ht'
          exact (hbindings name).imp fun v _ hvw => v.alike_mono heq hvw }

end

/-- Calling a macro in two contexts that agree on a closed set of scopes, with its own among them and those that its
    arguments remember, gives the same text or the same error, whatever else the contexts hold and whichever scopes
    are current in them. Afterwards the contexts agree on the set and on the roots imported during the call. -/
theorem macro_call_is_lexical {env : Environment} (hr : env.discard = Context.release) {marks : Nat → Nat → Prop}
    (hmarks : Relator.BiUnique marks)
    (hglobals : ∀ name v, env.globals.get? name = some v → v.scopes = [] ∧ v.Alike Eq marks v)
    (hoverlay : ∀ name v, env.overlay.get? name = some v → v.scopes = [] ∧ v.Alike Eq marks v)
    (huniform : ∀ f ∈ env.hosts, f.Uniform .marks) {R : Set Nat} {c c' : Context} (hclosed : c.Closed R)
    (hagree : Context.AgreeOn R marks c c') (d : MacroDef) (address : Address) {scope : Nat} (hscope : scope ∈ R)
    (p : Position) {as bs : List Argument} (hargs : List.Forall₂ (Argument.Alike Eq marks) as bs)
    (hin : ∀ a ∈ as, ∀ i ∈ a.value.scopes, i ∈ R) :
    ∃ e e', ((∃ text, Session.call env (.defined d address scope) p as c = .done (.string text) e ∧
          Session.call env (.defined d address scope) p bs c' = .done (.string text) e') ∨
        ∃ error, Session.call env (.defined d address scope) p as c = .failed error e ∧
          Session.call env (.defined d address scope) p bs c' = .failed error e') ∧
      e.Closed (R ∪ c.importedSince e) ∧ Context.AgreeOn (R ∪ c.importedSince e) marks e e' := by
  have hf := Environment.forgets_release hr
  have hself : ∀ {t : Table Value}, (∀ name v, t.get? name = some v → v.scopes = [] ∧ v.Alike Eq marks v) → ∀ name,
      Option.Rel (Value.Alike ⊥ marks) (t.get? name) (t.get? name) := by
    intro t ht name
    cases hv : t.get? name with
    | none => exact .none
    | some v =>
      obtain ⟨hscopes, halike⟩ := ht name v hv
      refine .some (v.alike_imp halike fun i hi => ?_)
      rw [hscopes] at hi
      cases hi
  have henv : env.Alike .marks marks env :=
    { globals := hself hglobals
      overlay := hself hoverlay
      library := rfl
      hosts := rfl
      uniform := huniform
      forgets := hf
      forgets' := hf
      release := fun _ => ⟨hr, hr⟩ }
  have hargs' : List.Forall₂ (Argument.Alike (⊥ ⊔ (agreement R marks).lasting c c') marks) as bs :=
    Argument.allAlike_imp hargs fun a ha i hi j hij => Or.inr (Or.inl ⟨hij, hin a ha i hi⟩)
  have hcall := Eval.callMacro_alike (renderBody_alike (k := agreement R marks) henv env.allowance) henv
    (env.enter_keeps hf) (env.enter_keeps hf) (hagree.related hclosed hmarks) d address
    (Or.inr (Or.inl ⟨rfl, hscope⟩)) p hargs'
  have hkeeps := fun arguments => Eval.Keeps.call (env.enter_keeps hf) hf (.defined d address scope) p arguments
  obtain ⟨e, he⟩ := (hkeeps as).ends (Nat.lt_succ_of_lt (env.room_lt_allowance c))
  have hframe := (hkeeps as).frame he
  change Outcome.Alike _ _ (Session.call env (.defined d address scope) p as c)
    (Session.call env (.defined d address scope) p bs c') at hcall
  change (Session.call env (.defined d address scope) p as c).context? = some e at he
  generalize Session.call env (.defined d address scope) p as c = o at hcall he
  generalize Session.call env (.defined d address scope) p bs c' = o' at hcall
  cases hcall with
  | @done _ _ e₁ e' hrel hv =>
    cases he
    obtain ⟨text, rfl, rfl⟩ := hv
    exact ⟨e, e', Or.inl ⟨text, rfl, rfl⟩, Context.AgreeOn.of_related hclosed hframe.imported hrel⟩
  | @failed e₁ e' error hrel =>
    cases he
    exact ⟨e, e', Or.inr ⟨error, rfl, rfl⟩, Context.AgreeOn.of_related hclosed hframe.imported hrel⟩
  | exhausted => cases he

/-- A macro that reads a variable of its own scope, one of its callers' and a template, called inside scopes that
    bind the second one differently: it sees neither of these. -/
theorem macro_call_is_lexical_in_child :
    let p : Position := ⟨1, 1⟩
    let lib : Template := ⟨"lib", ⟨p, [.assign p "lib" (.literal p (.string "c"))]⟩⟩
    let env : Environment := { library := [("lib", lib)] }
    let d : MacroDef := ⟨p, "m", [], ⟨p, [.output p (.name p "x"), .output p (.name p "y"), .output p (.name p "lib")]⟩⟩
    let inside (y : String) : Context :=
      { Context.initial with
        arena := [some ⟨[("x", .string "a")], none⟩, some ⟨[("y", .string y)], some 0⟩]
        current := 1 }
    env.discard = Context.release ∧ ∃ e e',
      Session.call env (.defined d ⟨.given 0, []⟩ 0) p [] (inside "left") = .done (.string "ac") e ∧
      Session.call env (.defined d ⟨.given 0, []⟩ 0) p [] (inside "right") = .done (.string "ac") e' ∧
      Context.AgreeOn ({0} ∪ (inside "left").importedSince e) Eq e e' := by
  intro p lib env d inside
  have hscope : ∀ {y i s}, i ∈ ({0} : Set Nat) → (inside y).arena.scope? i = some s →
      s = ⟨[("x", .string "a")], none⟩ := by
    intro y i s hi hs
    cases Set.mem_singleton_iff.mp hi
    cases hs
    rfl
  have hbound : ∀ {name v}, Table.get? [("x", Value.string "a")] name = some v → v = .string "a" := by
    intro name v hv
    rw [Table.get?_cons] at hv
    split at hv
    · cases hv
      rfl
    · cases hv
  have hclosed : (inside "left").Closed {0} :=
    { live := fun i hi => by
        cases Set.mem_singleton_iff.mp hi
        rfl
      parent := fun i s q hi hs hq => by
        rw [hscope hi hs] at hq
        cases hq
      imported := fun name i hi => by cases hi
      bound := fun i s name v hi hs hv j hj => by
        rw [hscope hi hs] at hv
        rw [hbound hv] at hj
        cases hj }
  have hagree : Context.AgreeOn {0} Eq (inside "left") (inside "right") :=
    { layout := rfl
      depth := rfl
      imported := fun _ => rfl
      accesses := fun _ => rfl
      bindings := fun i s t hi hs ht name => by
        rw [hscope hi hs, hscope hi ht]
        cases hv : Table.get? [("x", Value.string "a")] name with
        | none => exact .none
        | some v => exact .some (v.alike_self (fun _ => rfl) fun _ _ => rfl) }
  have hr : env.discard = Context.release := rfl
  obtain ⟨e, e', hresult, -, hagree'⟩ := macro_call_is_lexical hr (biUnique_of_eq fun _ _ h => h)
    (fun _ _ h => by cases h) (fun _ _ h => by cases h) (fun _ h => by cases h) hclosed hagree d ⟨.given 0, []⟩
    (Set.mem_singleton 0) p .nil fun _ h => by cases h
  have htext : ∃ e, Session.call env (.defined d ⟨.given 0, []⟩ 0) p [] (inside "left") = .done (.string "ac") e :=
    ⟨_, rfl⟩
  obtain ⟨e₁, htext⟩ := htext
  rcases hresult with ⟨text, hleft, hright⟩ | ⟨error, hleft, -⟩
  · rw [htext] at hleft
    cases hleft
    exact ⟨hr, e, e', htext, hright, hagree'⟩
  · rw [htext] at hleft
    cases hleft

end TemplatedSql
