import TemplatedSql.Proofs.Import.Watch

/-! # What moments have in common

While an evaluation is under way it adds names to the scope it began in and leaves the other scopes that were there
alone; of a template once imported it keeps the root, with its names. So nothing that was imported at one moment is
lost at a later one, and the root of a template whose rendering has ended does not change any more. -/

namespace TemplatedSql

/-! ### Scopes that only gain names -/

/-- A scope has the same parent as another and at least its names. -/
structure Scope.Grows (s t : Scope) : Prop where
  parent : t.parent = s.parent
  bound : ∀ name, (s.bindings.get? name).isSome = true → (t.bindings.get? name).isSome = true

namespace Scope.Grows
variable {s t u : Scope}

theorem refl (s : Scope) : s.Grows s :=
  ⟨rfl, fun _ h => h⟩

theorem trans (h₁ : s.Grows t) (h₂ : t.Grows u) : s.Grows u :=
  ⟨h₂.parent.trans h₁.parent, fun name h => h₂.bound name (h₁.bound name h)⟩

theorem setAll (s : Scope) (entries : Table Value) : s.Grows { s with bindings := s.bindings.setAll entries } where
  parent := rfl
  bound name h := by
    show ((s.bindings.setAll entries).get? name).isSome = true
    induction entries generalizing s with
    | nil => exact h
    | cons e entries ih =>
      refine ih { s with bindings := s.bindings.set e.1 e.2 } ?_
      show ((s.bindings.set e.1 e.2).get? name).isSome = true
      rw [Table.get?_set]
      split
      · rfl
      · exact h

end Scope.Grows

/-! ### Contexts of which nothing imported is lost -/

/-- The current scope is live, and the root of an imported template is a live scope without a parent. -/
structure Context.Rooted (c : Context) : Prop where
  current : c.arena.isLive c.current = true
  imported : ∀ name i, c.imported.get? name = some i → ∃ s, c.arena.scope? i = some s ∧ s.parent = none

/-- What is imported in a context is imported in another one with the same root, which has kept its names. -/
structure Context.Retained (c d : Context) : Prop where
  imported : ∀ name i, c.imported.get? name = some i → d.imported.get? name = some i
  root : ∀ name i s, c.imported.get? name = some i → c.arena.scope? i = some s →
    ∃ t, d.arena.scope? i = some t ∧ s.Grows t

/-- What a context that an evaluation comes to has in common with the one it began in. -/
structure Context.Meanwhile (c x : Context) : Prop where
  imported : ∀ name i, c.imported.get? name = some i → x.imported.get? name = some i
  scope : ∀ i s, c.arena.scope? i = some s → i ≠ c.current → x.arena.scope? i = some s
  here : ∀ s, c.arena.scope? c.current = some s → ∃ t, x.arena.scope? c.current = some t ∧ s.Grows t

namespace Context
variable {env : Environment} {names : Set String} {c d x : Context}

namespace Rooted

theorem of_ordered (h : c.Ordered) : c.Rooted :=
  ⟨h.current, h.imported⟩

theorem of_frame (hc : c.Rooted) (h : Frame env names c d) : d.Rooted where
  current := h.current ▸ h.isLive hc.current
  imported name i hi := by
    rcases h.root name i hi with hold | ⟨-, -, hs⟩
    · obtain ⟨s, hs, hroot⟩ := hc.imported name i hold
      obtain ⟨t, ht, hparent⟩ := h.kept hs
      exact ⟨t, ht, hparent.trans hroot⟩
    · exact hs

theorem opening (hc : c.Rooted) (parent : Option Nat) : (c.opening parent).Rooted where
  current := Arena.isLive_of_scope? (Arena.scope?_push_length _ _)
  imported name i hi := by
    obtain ⟨s, hs, hroot⟩ := hc.imported name i hi
    exact ⟨s, Arena.scope?_push_of_scope? _ hs, hroot⟩

theorem importing (hc : c.Rooted) (name : String) : (c.importing name).Rooted where
  current := Arena.isLive_of_scope? (Arena.scope?_push_length _ _)
  imported other i hi := by
    by_cases hother : other = name
    · rw [hother, imported_importing] at hi
      cases hi
      exact ⟨_, Arena.scope?_push_length c.arena none, rfl⟩
    · obtain ⟨s, hs, hroot⟩ := hc.imported other i ((imported_importing_of_ne hother c).symm.trans hi)
      exact ⟨s, Arena.scope?_push_of_scope? none hs, hroot⟩

end Rooted

theorem Retained.refl (c : Context) : c.Retained c :=
  ⟨fun _ _ h => h, fun _ _ s _ hs => ⟨s, hs, .refl s⟩⟩

theorem Retained.trans (h₁ : c.Retained d) (h₂ : d.Retained x) : c.Retained x where
  imported name i hi := h₂.imported name i (h₁.imported name i hi)
  root name i s hi hs := by
    obtain ⟨t, ht, hst⟩ := h₁.root name i s hi hs
    obtain ⟨u, hu, htu⟩ := h₂.root name i t (h₁.imported name i hi) ht
    exact ⟨u, hu, hst.trans htu⟩

namespace Meanwhile

theorem retained (h : c.Meanwhile x) : c.Retained x where
  imported := h.imported
  root name i s _ hs := by
    by_cases hi : i = c.current
    · subst hi
      exact h.here s hs
    · exact ⟨s, h.scope i s hs hi, .refl s⟩

theorem of_frame (h : Frame env names c d) : c.Meanwhile d where
  imported := h.imported
  scope := h.scope
  here s hs := by
    obtain ⟨entries, -, ht⟩ := h.here s hs
    exact ⟨_, ht, .setAll s entries⟩

theorem refl (c : Context) : c.Meanwhile c :=
  ⟨fun _ _ h => h, fun _ _ h _ => h, fun s hs => ⟨s, hs, .refl s⟩⟩

/-- What follows an evaluation has it in common with what was before. -/
theorem after_frame (hf : Frame env names c d) (h : d.Meanwhile x) : c.Meanwhile x where
  imported name i hi := h.imported name i (hf.imported name i hi)
  scope i s hs hi := h.scope i s (hf.scope i s hs hi) (hf.current ▸ hi)
  here s hs := by
    obtain ⟨entries, -, ht⟩ := hf.here s hs
    obtain ⟨u, hu, htu⟩ := h.here _ (hf.current ▸ ht)
    exact ⟨u, hf.current ▸ hu, (Scope.Grows.setAll s entries).trans htu⟩

/-- Inside a new scope nothing around it changes. -/
theorem of_opening {parent : Option Nat} (h : (c.opening parent).Meanwhile x) : c.Meanwhile x := by
  have hkept : ∀ i s, c.arena.scope? i = some s → x.arena.scope? i = some s := fun i s hs =>
    h.scope i s (Arena.scope?_push_of_scope? parent hs) (Nat.ne_of_lt (Arena.lt_length_of_scope? hs))
  exact ⟨h.imported, fun i s hs _ => hkept i s hs, fun s hs => ⟨s, hkept _ s hs, .refl s⟩⟩

theorem of_importing {name : String} (hname : c.imported.get? name = none) (h : (c.importing name).Meanwhile x) :
    c.Meanwhile x := by
  have hopening : (c.opening none).Meanwhile x :=
    { imported := fun other i hi => by
        have hne : other ≠ name := by
          rintro rfl
          rw [show (c.opening none).imported = c.imported from rfl, hname] at hi
          cases hi
        exact h.imported other i ((imported_importing_of_ne hne c).trans hi)
      scope := h.scope
      here := h.here }
  exact hopening.of_opening

end Meanwhile
end Context

/-! ### Chronicles -/

/-- What a later context has in common with a moment: nothing imported is lost, and if the moment is the end of the
    rendering of a template, the root is just as it was. -/
structure Moment.Lasts (m : Moment) (x : Context) : Prop where
  retained : m.next.Retained x
  sealed : ∀ t i d, m = .closes t i d → x.arena.scope? i = d.arena.scope? i

/-- What holds of the moments of an evaluation that begins in `c` and ends in `e`. -/
structure Chronicle (env : Environment) (c : Context) (moments : List Moment) (e : Context) : Prop where
  meanwhile : ∀ m ∈ moments, c.Meanwhile m.context
  opened : ∀ name t x, .opens name t x ∈ moments ↔ .reads name x ∈ moments ∧ env.lookup x name = none ∧
    env.library.get? name = some t ∧ x.imported.get? t.name = none
  fresh : ∀ t i d, .closes t i d ∈ moments → c.arena.scope? i = none ∧ d.arena.isLive i = true
  ordered : moments.Pairwise fun m x => m.Lasts x.context
  ended : ∀ m ∈ moments, m.Lasts e

namespace Chronicle
variable {env : Environment} {names : Set String} {c d e x : Context} {l k : List Moment}

theorem nil (c e : Context) : Chronicle env c [] e where
  meanwhile _ h := by cases h
  opened _ _ _ := by simp
  fresh _ _ _ h := by cases h
  ordered := .nil
  ended _ h := by cases h

/-- What lasts to the end of an evaluation lasts on. The scope that the next one binds names in was live before the
    first one, so it is not the root of a template whose rendering ended in the first one. -/
theorem lasts_of_meanwhile (hc : c.Rooted) (hcurrent : d.current = c.current) (h : Chronicle env c l d)
    (hx : d.Meanwhile x) {m : Moment} (hm : m ∈ l) : m.Lasts x where
  retained := (h.ended m hm).retained.trans hx.retained
  sealed t i y hmoment := by
    subst hmoment
    obtain ⟨hfree, hlive⟩ := h.fresh t i y hm
    obtain ⟨s, hs⟩ := Arena.isLive_iff.mp hlive
    have hd := (h.ended _ hm).sealed t i y rfl
    have hne : i ≠ d.current := by
      rintro rfl
      obtain ⟨u, hu⟩ := Arena.isLive_iff.mp hc.current
      rw [hcurrent, hu] at hfree
      cases hfree
    rw [hs, hx.scope i s (hd.trans hs) hne]

theorem append (hc : c.Rooted) (hcd : Frame env names c d) (hde : Frame env names d e) (h₁ : Chronicle env c l d)
    (h₂ : Chronicle env d k e) : Chronicle env c (l ++ k) e where
  meanwhile m hm := by
    rcases List.mem_append.mp hm with hm | hm
    · exact h₁.meanwhile m hm
    · exact .after_frame hcd (h₂.meanwhile m hm)
  opened name t x := by
    rw [List.mem_append, List.mem_append, h₁.opened, h₂.opened, or_and_right]
  fresh t i y hy := by
    rcases List.mem_append.mp hy with hy | hy
    · exact h₁.fresh t i y hy
    · obtain ⟨hfree, hlive⟩ := h₂.fresh t i y hy
      exact ⟨hcd.scope_none hfree, hlive⟩
  ordered := List.pairwise_append.mpr ⟨h₁.ordered, h₂.ordered, fun _ hm x hx =>
    h₁.lasts_of_meanwhile hc hcd.current (h₂.meanwhile x hx) hm⟩
  ended m hm := by
    rcases List.mem_append.mp hm with hm | hm
    · exact h₁.lasts_of_meanwhile hc hcd.current (.of_frame hde) hm
    · exact h₂.ended m hm

/-- A name is read for which nothing has to be imported. -/
theorem read {name : String} (hce : Frame env names c e)
    (hknown : ∀ t, env.lookup c name = none → env.library.get? name = some t → c.imported.get? t.name ≠ none) :
    Chronicle env c [.reads name c] e where
  meanwhile m hm := by
    rw [List.mem_singleton.mp hm]
    exact .refl c
  opened other t x := by
    constructor
    · intro hx
      simp at hx
    · rintro ⟨hx, hlookup, ht, hi⟩
      cases List.mem_singleton.mp hx
      exact absurd hi (hknown t hlookup ht)
  fresh t i y hy := by simp at hy
  ordered := List.pairwise_singleton _ _
  ended m hm := by
    rw [List.mem_singleton.mp hm]
    exact ⟨(Context.Meanwhile.of_frame hce).retained, fun _ _ _ h => by cases h⟩

/-- What happens in a scope of its own. The slot of this scope is given back, and no root lies in it: the roots of the
    templates imported on the way were free while it was taken. -/
theorem leave (hf : env.Forgets) (hc : c.Rooted) {parent : Option Nat} (hframe : Frame env names (c.opening parent) d)
    (h : Chronicle env (c.opening parent) l d) :
    Chronicle env c l (env.discard { d with current := c.current } c.arena.length) := by
  obtain ⟨arena, hdiscard, harena, -⟩ := hf { d with current := c.current } c.arena.length
  have htaken : (c.opening parent).arena.scope? c.arena.length ≠ none := by
    rw [Context.opening, Arena.scope?_push_length]
    exact Option.some_ne_none _
  have hroot : ∀ name i, d.imported.get? name = some i → i ≠ c.arena.length := by
    rintro name _ hi rfl
    rcases hframe.root name _ hi with hold | ⟨-, hfree, -⟩
    · obtain ⟨s, hs, -⟩ := hc.imported name _ hold
      rw [Arena.scope?_length] at hs
      cases hs
    · exact htaken hfree
  rw [hdiscard]
  exact
    { meanwhile := fun m hm => (h.meanwhile m hm).of_opening
      opened := h.opened
      fresh := fun t i y hy => by
        obtain ⟨hfree, hlive⟩ := h.fresh t i y hy
        refine ⟨?_, hlive⟩
        rwa [Context.opening, Arena.scope?_push_of_ne parent] at hfree
        rintro rfl
        exact htaken hfree
      ordered := h.ordered
      ended := fun m hm =>
        { retained :=
            { imported := (h.ended m hm).retained.imported
              root := fun name i s hi hs => by
                obtain ⟨t, ht, hst⟩ := (h.ended m hm).retained.root name i s hi hs
                have hne := hroot name i ((h.ended m hm).retained.imported name i hi)
                exact ⟨t, (harena i hne).trans ht, hst⟩ }
          sealed := fun t i y hy => by
            refine (harena i ?_).trans ((h.ended m hm).sealed t i y hy)
            subst hy
            rintro rfl
            exact htaken (h.fresh t _ y hm).1 } }

/-- A name is read for which a template has to be imported. The root of the template was free before, and it is not
    the current scope afterwards. -/
theorem importing {name : String} {t : Template} (hlookup : env.lookup c name = none)
    (ht : env.library.get? name = some t) (hi : c.imported.get? t.name = none)
    (hframe : Frame env names (c.importing t.name) d) (h : Chronicle env (c.importing t.name) l d) :
    Chronicle env c (.reads name c :: .opens name t c :: (l ++ [.closes t c.arena.length d]))
      { d with current := c.current } := by
  have hread : ∀ {x : Context}, c.Meanwhile x → Moment.Lasts (.reads name c) x := fun hx =>
    ⟨hx.retained, fun _ _ _ h => by cases h⟩
  have hopen : ∀ {x : Context}, (c.importing t.name).Meanwhile x → Moment.Lasts (.opens name t c) x := fun hx =>
    ⟨hx.retained, fun _ _ _ h => by cases h⟩
  have hclose : Moment.Lasts (.closes t c.arena.length d) d :=
    ⟨.refl d, fun _ _ _ h => by cases h; rfl⟩
  -- What follows the first two moments happens in the new root.
  have hinside : ∀ x ∈ l ++ [Moment.closes t c.arena.length d], (c.importing t.name).Meanwhile x.context := by
    intro x hx
    rcases List.mem_append.mp hx with hx | hx
    · exact h.meanwhile x hx
    · rw [List.mem_singleton.mp hx]
      exact .of_frame hframe
  have hend : ∀ m ∈ l ++ [Moment.closes t c.arena.length d], m.Lasts d := by
    intro m hm
    rcases List.mem_append.mp hm with hm | hm
    · exact h.ended m hm
    · rw [List.mem_singleton.mp hm]
      exact hclose
  have hback : ∀ {m : Moment}, m.Lasts d → m.Lasts { d with current := c.current } := fun hm =>
    ⟨⟨hm.retained.imported, hm.retained.root⟩, hm.sealed⟩
  exact
    { meanwhile := fun m hm => by
        rcases List.mem_cons.mp hm with rfl | hm
        · exact .refl c
        · rcases List.mem_cons.mp hm with rfl | hm
          · exact .refl c
          · exact (hinside m hm).of_importing hi
      opened := fun other u x => by
        constructor
        · intro hx
          simp only [List.mem_cons, List.mem_append, reduceCtorEq, false_or, List.not_mem_nil, or_false] at hx
          rcases hx with hx | hx
          · cases hx
            exact ⟨List.mem_cons_self, hlookup, ht, hi⟩
          · obtain ⟨hx, hx'⟩ := (h.opened other u x).mp hx
            exact ⟨by simp [hx], hx'⟩
        · rintro ⟨hx, hx'⟩
          simp only [List.mem_cons, List.mem_append, reduceCtorEq, false_or, List.not_mem_nil, or_false] at hx
          rcases hx with hx | hx
          · cases hx
            rw [ht] at hx'
            obtain rfl := Option.some.inj hx'.2.1
            simp
          · simp [(h.opened other u x).mpr ⟨hx, hx'⟩]
      fresh := fun u i y hy => by
        simp only [List.mem_cons, List.mem_append, reduceCtorEq, false_or, List.not_mem_nil, or_false] at hy
        rcases hy with hy | hy
        · obtain ⟨hfree, hlive⟩ := h.fresh u i y hy
          refine ⟨?_, hlive⟩
          rw [Context.importing, Context.opening, Arena.scope?_push] at hfree
          split at hfree
          · cases hfree
          · exact hfree
        · cases hy
          obtain ⟨s, hs, -⟩ := hframe.kept (Arena.scope?_push_length c.arena none)
          exact ⟨Arena.scope?_length _, Arena.isLive_of_scope? hs⟩
      ordered := by
        refine List.pairwise_cons.mpr ⟨fun x hx => ?_, List.pairwise_cons.mpr ⟨fun x hx => hopen (hinside x hx), ?_⟩⟩
        · rcases List.mem_cons.mp hx with rfl | hx
          · exact hread (.refl c)
          · exact hread ((hinside x hx).of_importing hi)
        · refine List.pairwise_append.mpr ⟨h.ordered, List.pairwise_singleton _ _, fun m hm x hx => ?_⟩
          rw [List.mem_singleton.mp hx]
          exact h.ended m hm
      ended := fun m hm => by
        rcases List.mem_cons.mp hm with rfl | hm
        · exact hback (hread ((Context.Meanwhile.of_frame hframe).of_importing hi))
        · rcases List.mem_cons.mp hm with rfl | hm
          · exact hback (hopen (.of_frame hframe))
          · exact hback (hend m hm) }

/-- Chronicles speak of nothing but the scopes and the imported templates. -/
theorem of_eq {c' e' : Context} (h : Chronicle env c l e) (ha : c'.arena = c.arena) (hcur : c'.current = c.current)
    (hi : c'.imported = c.imported) (ha' : e'.arena = e.arena) (hi' : e'.imported = e.imported) :
    Chronicle env c' l e' where
  meanwhile m hm :=
    { imported := hi ▸ (h.meanwhile m hm).imported
      scope := ha ▸ hcur ▸ (h.meanwhile m hm).scope
      here := ha ▸ hcur ▸ (h.meanwhile m hm).here }
  opened := h.opened
  fresh := ha ▸ h.fresh
  ordered := h.ordered
  ended m hm :=
    { retained := ⟨hi' ▸ (h.ended m hm).retained.imported, ha' ▸ (h.ended m hm).retained.root⟩
      sealed := ha' ▸ (h.ended m hm).sealed }

/-- No template is imported twice. -/
theorem template?_nodup (h : Chronicle env c l e) : (l.filterMap Moment.template?).Nodup := by
  refine List.pairwise_filterMap.mpr (h.ordered.imp_of_mem fun {m x} hm hx hlasts name hname other hother => ?_)
  cases m with
  | opens read t y =>
    cases x with
    | opens read' u z =>
      cases hname
      cases hother
      intro heq
      -- The first import is kept to the second one, which begins with the template not imported.
      have hkept : z.imported.get? t.name = some y.arena.length :=
        hlasts.retained.imported t.name y.arena.length (y.imported_importing t.name)
      rw [heq, ((h.opened read' u z).mp hx).2.2.2] at hkept
      cases hkept
    | _ => cases hother
  | _ => cases hname

end Chronicle

end TemplatedSql
