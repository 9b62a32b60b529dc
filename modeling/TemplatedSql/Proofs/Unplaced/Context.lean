import TemplatedSql.Proofs.LexicalScope
import TemplatedSql.Proofs.Unplaced.Value

/-! # Contexts up to the places in macros

Two runs of bodies that differ in places go in step: their contexts have the same layout, and every name has in a
scope of the one the value that it has there in the other, up to the places in macros. The templates of the library
are the same for both runs, and so are the roots of those that have been imported, places included: nothing that a
root holds remembers a scope that the bodies opened. -/

namespace TemplatedSql

/-! ### Names in a scope -/

namespace Arena
variable {a b : Arena} {i : Nat}

/-- Arenas of the same layout have scopes in the same slots. -/
theorem isLive_of_layout_eq (h : a.layout = b.layout) (hi : a.isLive i = true) : b.isLive i = true := by
  obtain ⟨s, hs⟩ := isLive_iff.mp hi
  obtain ⟨t, ht, -⟩ := scope?_of_layout_eq h hs
  exact isLive_of_scope? ht

/-- Where the names in all scopes have the same values up to places, so have those found from a scope outward. -/
theorem find?_unplaced (hlayout : a.layout = b.layout)
    (hbound : ∀ i name, (a.bound? i name).map Value.unplaced = (b.bound? i name).map Value.unplaced) (i : Nat)
    (name : String) : (a.find? i name).map Value.unplaced = (b.find? i name).map Value.unplaced := by
  have hfrom : ∀ (n i : Nat),
      (a.findFrom name n i).map Value.unplaced = (b.findFrom name n i).map Value.unplaced := by
    intro n
    induction n with
    | zero => exact fun _ => rfl
    | succ n ih =>
      intro i
      rw [findFrom, findFrom]
      cases hs : a.scope? i with
      | none =>
        cases ht : b.scope? i with
        | none => rfl
        | some t =>
          obtain ⟨s, hs', -⟩ := scope?_of_layout_eq hlayout.symm ht
          rw [hs] at hs'
          cases hs'
      | some s =>
        obtain ⟨t, ht, hparent⟩ := scope?_of_layout_eq hlayout hs
        have hname := hbound i name
        rw [bound?_of_scope? hs, bound?_of_scope? ht] at hname
        rw [ht]
        dsimp only
        cases hv : s.bindings.get? name with
        | some v =>
          obtain ⟨w, hw, hvw⟩ := Option.map_eq_some_iff.mp ((hname.symm.trans (congrArg _ hv)))
          rw [hw]
          exact congrArg some hvw.symm
        | none =>
          rw [hv] at hname
          rw [Option.map_eq_none_iff.mp hname.symm, hparent]
          cases s.parent with
          | none => rfl
          | some p => exact ih p
  rw [find?, find?, length_eq_of_layout_eq hlayout]
  exact hfrom _ i

end Arena

/-! ### Roots that remember only roots -/

/-- The root scopes of the imported templates. -/
def Context.roots (c : Context) : Set Nat :=
  {i | ∃ name, c.imported.get? name = some i}

theorem Frame.roots_eq {env : Environment} {names : Set String} {c d : Context} (h : Frame env names c d) :
    c.roots ∪ c.importedSince d = d.roots := by
  ext i
  constructor
  · rintro (⟨name, hi⟩ | ⟨name, -, hi⟩)
    · exact ⟨name, h.imported name i hi⟩
    · exact ⟨name, hi⟩
  · rintro ⟨name, hi⟩
    rcases h.root name i hi with hold | ⟨hnone, -⟩
    · exact Or.inl ⟨name, hold⟩
    · exact Or.inr ⟨name, hnone, hi⟩

/-- What roots hold remembers only roots, and none of the scopes of `blocks`, of which the current one is one, is a
    root. -/
structure Context.Encloses (blocks : Set Nat) (c : Context) : Prop where
  roots : c.Closed c.roots
  current : c.current ∈ blocks
  live : ∀ i ∈ blocks, c.arena.isLive i = true
  apart : ∀ i ∈ blocks, i ∉ c.roots

namespace Context.Encloses
variable {blocks : Set Nat} {c d : Context}

theorem of_eq (h : c.Encloses blocks) (harena : d.arena = c.arena) (himported : d.imported = c.imported)
    (hcurrent : d.current = c.current) : d.Encloses blocks := by
  have hroots : d.roots = c.roots := by rw [Context.roots, Context.roots, himported]
  refine ⟨⟨?_, ?_, ?_, ?_⟩, ?_, ?_, ?_⟩ <;> simp only [harena, himported, hcurrent, hroots]
  exacts [h.roots.live, h.roots.parent, h.roots.imported, h.roots.bound, h.current, h.live, h.apart]

theorem current_scope (h : c.Encloses blocks) : ∃ s, c.arena.scope? c.current = some s :=
  Arena.isLive_iff.mp (h.live _ h.current)

theorem lt_length (h : c.Encloses blocks) {i : Nat} (hi : i ∈ blocks ∨ i ∈ c.roots) : i < c.arena.length := by
  obtain ⟨s, hs⟩ := Arena.isLive_iff.mp (hi.elim (h.live i) (h.roots.live i))
  exact Arena.lt_length_of_scope? hs

/-- A change of the arena that leaves the roots alone. -/
theorem of_scope? {more : Set Nat} {arena : Arena} {current : Nat} (h : c.Encloses blocks)
    (hroots : ∀ i ∈ c.roots, arena.scope? i = c.arena.scope? i) (hcurrent : current ∈ more)
    (hlive : ∀ i ∈ more, arena.isLive i = true) (hapart : ∀ i ∈ more, i ∉ c.roots) :
    Context.Encloses more { c with arena, current } where
  roots :=
    { live := fun i hi => by
        rw [Arena.isLive, hroots i hi]
        exact h.roots.live i hi
      parent := fun i s p hi hs => h.roots.parent i s p hi ((hroots i hi).symm.trans hs)
      imported := h.roots.imported
      bound := fun i s name v hi hs => h.roots.bound i s name v hi ((hroots i hi).symm.trans hs) }
  current := hcurrent
  live := hlive
  apart := hapart

theorem bind (h : c.Encloses blocks) (name : String) (v : Value) : (c.bind name v).Encloses blocks := by
  refine h.of_scope? (fun i hi => ?_) h.current (fun i hi => ?_) h.apart
  · exact Arena.scope?_bind_of_ne fun heq => h.apart _ h.current (heq ▸ hi)
  · rw [Arena.isLive_bind]
    exact h.live i hi

theorem opening (h : c.Encloses blocks) (parent : Option Nat) :
    (c.opening parent).Encloses (insert c.arena.length blocks) := by
  have hne {i : Nat} (hi : i ∈ blocks ∨ i ∈ c.roots) : i ≠ c.arena.length := Nat.ne_of_lt (h.lt_length hi)
  refine h.of_scope? (fun i hi => Arena.scope?_push_of_ne parent (hne (.inr hi))) (Set.mem_insert _ _) ?_ ?_
  · rintro i (rfl | hi)
    · exact Arena.isLive_of_scope? (Arena.scope?_push_length c.arena parent)
    · rw [Arena.isLive, Arena.scope?_push_of_ne parent (hne (.inl hi))]
      exact h.live i hi
  · rintro i (rfl | hi)
    · exact fun hroot => hne (.inr hroot) rfl
    · exact h.apart i hi

theorem leave {scope current : Nat} (h : d.Encloses (insert scope blocks)) (hscope : scope ∉ blocks)
    (hcurrent : current ∈ blocks) : Context.Encloses blocks (Context.release { d with current } scope) := by
  have hroot : ∀ i ∈ d.roots, i ≠ scope := by
    rintro i hi rfl
    exact h.apart i (Set.mem_insert _ _) hi
  refine h.of_scope? (fun i hi => Arena.scope?_release_of_ne (hroot i hi)) hcurrent (fun i hi => ?_) fun i hi =>
    h.apart i (Set.mem_insert_of_mem _ hi)
  rw [Arena.isLive, Arena.scope?_release_of_ne (ne_of_mem_of_not_mem hi hscope)]
  exact h.live i (Set.mem_insert_of_mem _ hi)

end Context.Encloses

/-! ### Contexts in step -/

/-- Contexts that differ at most in the places in macros and in what has been logged, and not in the roots of
    templates. -/
structure Context.Coincide (blocks : Set Nat) (c c' : Context) : Prop where
  encloses : c.Encloses blocks
  layout : c.arena.layout = c'.arena.layout
  current : c.current = c'.current
  depth : c.depth = c'.depth
  accesses : c.accesses = c'.accesses
  imported : ∀ name, c.imported.get? name = c'.imported.get? name
  roots : ∀ i ∈ c.roots, ∀ name, c.arena.bound? i name = c'.arena.bound? i name
  bound : ∀ i name, (c.arena.bound? i name).map Value.unplaced = (c'.arena.bound? i name).map Value.unplaced

namespace Context.Coincide
variable {blocks : Set Nat} {c c' c'' d d' : Context}

theorem length_eq (h : c.Coincide blocks c') : c.arena.length = c'.arena.length :=
  Arena.length_eq_of_layout_eq h.layout

theorem roots_eq (h : c.Coincide blocks c') : c.roots = c'.roots := by
  simp only [Context.roots, h.imported]

theorem encloses_right (h : c.Coincide blocks c') : c'.Encloses blocks where
  roots := by
    rw [← h.roots_eq]
    exact
      { live := fun i hi => Arena.isLive_of_layout_eq h.layout (h.encloses.roots.live i hi)
        parent := fun i t p hi ht hp => by
          obtain ⟨s, hs, hparent⟩ := Arena.scope?_of_layout_eq h.layout.symm ht
          exact h.encloses.roots.parent i s p hi hs (hparent.trans hp)
        imported := fun name i hi => h.encloses.roots.imported name i ((h.imported name).trans hi)
        bound := fun i t name v hi ht hv => by
          obtain ⟨s, hs, -⟩ := Arena.scope?_of_layout_eq h.layout.symm ht
          have hname := h.roots i hi name
          rw [Arena.bound?_of_scope? hs, Arena.bound?_of_scope? ht, hv] at hname
          exact h.encloses.roots.bound i s name v hi hs hname }
  current := h.current ▸ h.encloses.current
  live i hi := Arena.isLive_of_layout_eq h.layout (h.encloses.live i hi)
  apart i hi := h.roots_eq ▸ h.encloses.apart i hi

theorem symm (h : c.Coincide blocks c') : c'.Coincide blocks c where
  encloses := h.encloses_right
  layout := h.layout.symm
  current := h.current.symm
  depth := h.depth.symm
  accesses := h.accesses.symm
  imported name := (h.imported name).symm
  roots i hi name := (h.roots i (h.roots_eq ▸ hi) name).symm
  bound i name := (h.bound i name).symm

theorem trans (h : c.Coincide blocks c') (h' : c'.Coincide blocks c'') : c.Coincide blocks c'' where
  encloses := h.encloses
  layout := h.layout.trans h'.layout
  current := h.current.trans h'.current
  depth := h.depth.trans h'.depth
  accesses := h.accesses.trans h'.accesses
  imported name := (h.imported name).trans (h'.imported name)
  roots i hi name := (h.roots i hi name).trans (h'.roots i (h.roots_eq ▸ hi) name)
  bound i name := (h.bound i name).trans (h'.bound i name)

/-- A context without imports coincides with itself. -/
theorem initial (given : Nat) :
    Context.Coincide {0} { Context.initial with given } { Context.initial with given } := by
  have hnone : ∀ i, i ∉ Context.roots { Context.initial with given } := fun i ⟨_, hi⟩ => by cases hi
  have hclosed : Context.Closed (Context.roots { Context.initial with given }) { Context.initial with given } :=
    ⟨fun i hi => absurd hi (hnone i), fun i _ _ hi => absurd hi (hnone i), fun _ i hi => ⟨_, hi⟩,
      fun i _ _ _ hi => absurd hi (hnone i)⟩
  refine ⟨⟨hclosed, rfl, ?_, fun i _ => hnone i⟩, rfl, rfl, rfl, rfl, fun _ => rfl, fun _ _ _ => rfl, fun _ _ => rfl⟩
  rintro i rfl
  rfl

/-! ### Changes -/

/-- A change of other fields. -/
theorem of_eq (h : c.Coincide blocks c') (harena : d.arena = c.arena) (harena' : d'.arena = c'.arena)
    (hcurrent : d.current = c.current) (hcurrent' : d'.current = c'.current) (himported : d.imported = c.imported)
    (himported' : d'.imported = c'.imported) (hdepth : d.depth = d'.depth) (haccesses : d.accesses = d'.accesses) :
    d.Coincide blocks d' where
  encloses := h.encloses.of_eq harena himported hcurrent
  layout := by rw [harena, harena', h.layout]
  current := by rw [hcurrent, hcurrent', h.current]
  depth := hdepth
  accesses := haccesses
  imported := by
    rw [himported, himported']
    exact h.imported
  roots := by
    rw [harena, harena', show d.roots = c.roots by rw [Context.roots, Context.roots, himported]]
    exact h.roots
  bound := by
    rw [harena, harena']
    exact h.bound

theorem bind (h : c.Coincide blocks c') {v w : Value} (hvw : v.unplaced = w.unplaced) (name : String) :
    (c.bind name v).Coincide blocks (c'.bind name w) := by
  obtain ⟨s, hs⟩ := h.encloses.current_scope
  obtain ⟨t, ht⟩ := h.encloses_right.current_scope
  exact
    { encloses := h.encloses.bind name v
      layout := (Arena.layout_bind _ _ _ _).trans (h.layout.trans (Arena.layout_bind _ _ _ _).symm)
      current := h.current
      depth := h.depth
      accesses := h.accesses
      imported := h.imported
      -- The current scope is not a root.
      roots := fun i hi other => by
        have hne : i ≠ c.current := fun heq => h.encloses.apart _ h.encloses.current (heq ▸ hi)
        rw [Context.bind, Context.bind, Arena.bound?_bind hs, Arena.bound?_bind ht, if_neg fun hand => hne hand.1,
          if_neg fun hand => hne (hand.1.trans h.current.symm)]
        exact h.roots i hi other
      bound := fun i other => by
        rw [Context.bind, Context.bind, Arena.bound?_bind hs, Arena.bound?_bind ht, h.current]
        split
        · exact congrArg some hvw
        · exact h.bound i other }

theorem bindAll {bindings bindings' : Table Value} (h : c.Coincide blocks c')
    (hbindings : Value.entriesUnplaced bindings = Value.entriesUnplaced bindings') :
    (bindings.foldl (fun c b => c.bind b.1 b.2) c).Coincide blocks
      (bindings'.foldl (fun c b => c.bind b.1 b.2) c') := by
  induction bindings generalizing bindings' c c' with
  | nil =>
    cases bindings' with
    | nil => exact h
    | cons b bindings' => cases hbindings
  | cons b bindings ih =>
    cases bindings' with
    | nil => cases hbindings
    | cons b' bindings' =>
      obtain ⟨hhead, htail⟩ := List.cons.inj hbindings
      obtain ⟨hname, hvalue⟩ := Prod.mk.inj hhead
      rw [List.foldl_cons, List.foldl_cons, hname]
      exact ih (h.bind hvalue _) htail

theorem opening (h : c.Coincide blocks c') (parent : Option Nat) :
    (c.opening parent).Coincide (insert c.arena.length blocks) (c'.opening parent) where
  encloses := h.encloses.opening parent
  layout := by
    rw [Context.opening, Context.opening, Arena.layout_push, Arena.layout_push, h.layout]
  current := h.length_eq
  depth := h.depth
  accesses := h.accesses
  imported := h.imported
  roots i hi name := by
    rw [Context.opening, Context.opening, Arena.bound?_push, Arena.bound?_push]
    exact h.roots i hi name
  bound i name := by
    rw [Context.opening, Context.opening, Arena.bound?_push, Arena.bound?_push]
    exact h.bound i name

theorem leave {scope current : Nat} (h : d.Coincide (insert scope blocks) d') (hscope : scope ∉ blocks)
    (hcurrent : current ∈ blocks) :
    Context.Coincide blocks (Context.release { d with current } scope) (Context.release { d' with current } scope) where
  encloses := h.encloses.leave hscope hcurrent
  layout := by
    rw [Context.release, Context.release, Arena.layout_release, Arena.layout_release, h.layout]
  current := rfl
  depth := h.depth
  accesses := h.accesses
  imported := h.imported
  roots i hi name := by
    rw [Context.release, Context.release, Arena.bound?_release, Arena.bound?_release, h.roots i hi name]
  bound i name := by
    rw [Context.release, Context.release, Arena.bound?_release, Arena.bound?_release]
    split
    · rfl
    · exact h.bound i name

/-! ### Imports

The roots are the same in both runs, so a template is imported alike, and what else the contexts hold does not
change. -/

theorem agreeOn (h : c.Coincide blocks c') : Context.AgreeOn c.roots Eq c c' where
  layout := h.layout
  depth := h.depth.symm
  imported name := (h.imported name).symm
  accesses n := by rw [h.accesses]
  bindings i s t hi hs ht name := by
    have hname := h.roots i hi name
    rw [Arena.bound?_of_scope? hs, Arena.bound?_of_scope? ht] at hname
    rw [hname]
    cases t.bindings.get? name with
    | none => exact .none
    | some v => exact .some (v.alike_self (fun _ => rfl) fun _ _ => rfl)

theorem of_agreeOn {env : Environment} (hr : env.discard = Context.release) (h : c.Coincide blocks c')
    (hframe : Frame env ∅ c d) (hframe' : Frame env ∅ c' d') (hclosed : d.Closed d.roots)
    (hagree : Context.AgreeOn d.roots Eq d d') : d.Coincide blocks d' := by
  have hroots : ∀ i ∈ d.roots, ∀ name, d.arena.bound? i name = d'.arena.bound? i name := by
    intro i hi name
    obtain ⟨s, hs⟩ := Arena.isLive_iff.mp (hclosed.live i hi)
    obtain ⟨t, ht, -⟩ := Arena.scope?_of_layout_eq hagree.layout hs
    rw [Arena.bound?_of_scope? hs, Arena.bound?_of_scope? ht]
    rcases (hagree.bindings i s t hi hs ht name).eq_or with ⟨hv, hw⟩ | ⟨v, w, hv, hw, hvw⟩
    · rw [hv, hw]
    · rw [hv, hw, v.eq_of_alike (fun _ _ h => h) hvw]
  exact
    { encloses :=
        { roots := hclosed
          current := hframe.current ▸ h.encloses.current
          live := fun i hi => hframe.isLive (h.encloses.live i hi)
          apart := by
            rintro i hi ⟨name, hroot⟩
            rcases hframe.root name i hroot with hold | ⟨-, hfree, -⟩
            · exact h.encloses.apart i hi ⟨name, hold⟩
            · have hlive := h.encloses.live i hi
              rw [Arena.isLive, hfree] at hlive
              cases hlive }
      layout := hagree.layout
      current := hframe.current.trans (h.current.trans hframe'.current.symm)
      depth := hagree.depth.symm
      accesses := hagree.accesses 0
      imported := fun name => (hagree.imported name).symm
      roots := hroots
      bound := fun i name => by
        by_cases hlive : c.arena.isLive i = true
        · -- A scope that was there has not changed.
          obtain ⟨s, hs⟩ := Arena.isLive_iff.mp hlive
          obtain ⟨t, ht, -⟩ := Arena.scope?_of_layout_eq h.layout hs
          have hname := h.bound i name
          rwa [Arena.bound?_of_scope? hs, Arena.bound?_of_scope? ht,
            ← Arena.bound?_of_scope? (hframe.scope_of_empty hs), ← Arena.bound?_of_scope? (hframe'.scope_of_empty ht)] at hname
        · cases hnew : d.arena.isLive i with
          | true =>
            rcases hframe.fresh hr i hnew with hold | ⟨other, -, hroot⟩
            · exact absurd hold hlive
            · rw [hroots i ⟨other, hroot⟩ name]
          | false =>
            have hnew' : d'.arena.isLive i = false := by
              rw [Bool.eq_false_iff] at hnew ⊢
              exact mt (Arena.isLive_of_layout_eq hagree.layout.symm) hnew
            rw [Arena.bound?_of_not_live hnew, Arena.bound?_of_not_live hnew'] }

end Context.Coincide

end TemplatedSql
