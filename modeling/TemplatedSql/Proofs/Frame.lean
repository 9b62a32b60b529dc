import Mathlib.Data.Set.Basic
import TemplatedSql.Proofs.Arena
import TemplatedSql.Session

/-! # What an evaluation keeps

An evaluation ends where it began: in the same scope, at the same depth of calls. Of the scopes that were
there it changes the current one only, and that one only by setting names; templates once imported stay
imported, and a scope that is new afterwards is the root of a template imported on the way. `Frame` says
this of two contexts, whether the evaluation between them gave a value or failed. -/

namespace TemplatedSql

/-! ### Names set in turn -/

namespace Table
variable {α : Type}

theorem setAll_append (t entries more : Table α) : t.setAll (entries ++ more) = (t.setAll entries).setAll more :=
  List.foldl_append

theorem get?_setAll_of_forall_ne {name : String} {entries : Table α} (h : ∀ e ∈ entries, e.1 ≠ name) (t : Table α) :
    (t.setAll entries).get? name = t.get? name := by
  induction entries generalizing t with
  | nil => rfl
  | cons e entries ih =>
    show ((t.set e.1 e.2).setAll entries).get? name = t.get? name
    rw [ih (fun e' he' => h e' (List.mem_cons_of_mem _ he')), get?_set,
      if_neg (Ne.symm (h e List.mem_cons_self))]

end Table

/-! ### Contexts in which an evaluation ends -/

/-- The context an evaluation ends with, after a value or an error. -/
def Outcome.context? {α : Type} : Outcome α → Option Context
  | .done _ c | .failed _ c => some c
  | .exhausted => none

namespace Eval
variable {α β : Type}

theorem context?_andThen (m : Eval α) (f : Context → Context) (c : Context) :
    (andThen m f c).context? = (m c).context?.map f := by
  unfold andThen
  cases m c <;> rfl

theorem context?_mapError (m : Eval α) (f : TemplateError → TemplateError) (c : Context) :
    (mapError m f c).context? = (m c).context? := by
  unfold mapError
  cases m c <;> rfl

theorem context?_bind_pure (m : Eval α) (f : α → β) (c : Context) :
    (Eval.bind m (fun v => Eval.pure (f v)) c).context? = (m c).context? := by
  unfold Eval.bind
  cases m c <;> rfl

end Eval

/-- The context in which the block of a new scope begins. -/
def Context.opening (c : Context) (parent : Option Nat) : Context :=
  { c with arena := c.arena.push parent, current := c.arena.length }

/-- The context in which the rendering of a template begins that is imported under a name. -/
def Context.importing (c : Context) (name : String) : Context :=
  { c.opening none with imported := c.imported.set name c.arena.length }

@[simp] theorem Context.imported_importing (c : Context) (name : String) :
    (c.importing name).imported.get? name = some c.arena.length := by
  rw [importing, Table.get?_set, if_pos rfl]

theorem Context.imported_importing_of_ne {name other : String} (h : other ≠ name) (c : Context) :
    (c.importing name).imported.get? other = c.imported.get? other := by
  rw [importing, Table.get?_set, if_neg h]

/-- Discarding a scope changes at most what is in its slot. Whatever is left there, no scope comes before its
    parent. -/
def Environment.Forgets (env : Environment) : Prop :=
  ∀ c i, ∃ arena, env.discard c i = { c with arena } ∧ (∀ k, k ≠ i → arena.scope? k = c.arena.scope? k) ∧
    (arena.scope? i = c.arena.scope? i ∨ ∀ s p, arena.scope? i = some s → s.parent = some p → p < i)

theorem Environment.forgets_release {env : Environment} (h : env.discard = Context.release) : env.Forgets := by
  intro c i
  refine ⟨c.arena.release i, by rw [h]; rfl, fun k hk => Arena.scope?_release_of_ne hk, Or.inr fun s p hs _ => ?_⟩
  rw [Arena.scope?_release, if_pos rfl] at hs
  cases hs

theorem Environment.forgets_keep {env : Environment} (h : env.discard = fun c _ => c) : env.Forgets :=
  fun c _ => ⟨c.arena, by rw [h], fun _ _ => rfl, Or.inl rfl⟩

/-! ### Frames -/

/-- What holds of the contexts before and after an evaluation that binds no other names than `names` in
    the current scope. -/
structure Frame (env : Environment) (names : Set String) (c d : Context) : Prop where
  current : d.current = c.current
  depth : d.depth = c.depth
  scope : ∀ i s, c.arena.scope? i = some s → i ≠ c.current → d.arena.scope? i = some s
  here : ∀ s, c.arena.scope? c.current = some s → ∃ entries : Table Value, (∀ e ∈ entries, e.1 ∈ names) ∧
    d.arena.scope? c.current = some { s with bindings := s.bindings.setAll entries }
  imported : ∀ name i, c.imported.get? name = some i → d.imported.get? name = some i
  root : ∀ name i, d.imported.get? name = some i → c.imported.get? name = some i ∨
    c.imported.get? name = none ∧ c.arena.scope? i = none ∧ ∃ s, d.arena.scope? i = some s ∧ s.parent = none
  fresh : env.discard = Context.release → ∀ i, d.arena.isLive i = true → c.arena.isLive i = true ∨
    ∃ name, c.imported.get? name = none ∧ d.imported.get? name = some i
  ends : env.discard = Context.release → c.arena.EndsLive → d.arena.EndsLive

namespace Frame
variable {env : Environment} {names more : Set String} {c d e : Context}

theorem refl (c : Context) : Frame env names c c where
  current := rfl
  depth := rfl
  scope _ _ h _ := h
  here s h := ⟨[], by simp, h⟩
  imported _ _ h := h
  root _ _ h := Or.inl h
  fresh _ _ h := Or.inl h
  ends _ h := h

theorem mono (h : Frame env names c d) (hsub : names ⊆ more) : Frame env more c d where
  current := h.current
  depth := h.depth
  scope := h.scope
  here s hs := by
    obtain ⟨entries, hnames, ht⟩ := h.here s hs
    exact ⟨entries, fun e he => hsub (hnames e he), ht⟩
  imported := h.imported
  root := h.root
  fresh := h.fresh
  ends := h.ends

/-- A scope that was there is still there, with the same parent. -/
theorem kept (h : Frame env names c d) {i : Nat} {s : Scope} (hs : c.arena.scope? i = some s) :
    ∃ t, d.arena.scope? i = some t ∧ t.parent = s.parent := by
  by_cases hi : i = c.current
  · subst hi
    obtain ⟨entries, -, ht⟩ := h.here s hs
    exact ⟨_, ht, rfl⟩
  · exact ⟨s, h.scope i s hs hi, rfl⟩

theorem isLive (h : Frame env names c d) {i : Nat} (hi : c.arena.isLive i = true) : d.arena.isLive i = true := by
  obtain ⟨s, hs⟩ := Arena.isLive_iff.mp hi
  obtain ⟨t, ht, -⟩ := h.kept hs
  exact Arena.isLive_of_scope? ht

/-- Where nothing may be bound, no scope changes. -/
theorem scope_of_empty (h : Frame env ∅ c d) {i : Nat} {s : Scope} (hs : c.arena.scope? i = some s) :
    d.arena.scope? i = some s := by
  by_cases hi : i = c.current
  · subst hi
    obtain ⟨entries, hnames, ht⟩ := h.here s hs
    rw [ht, List.eq_nil_iff_forall_not_mem.mpr hnames]
    rfl
  · exact h.scope i s hs hi

theorem imported_none (h : Frame env names c d) {name : String} (hd : d.imported.get? name = none) :
    c.imported.get? name = none := by
  cases hc : c.imported.get? name with
  | none => rfl
  | some i => rw [h.imported name i hc] at hd; cases hd

theorem scope_none (h : Frame env names c d) {i : Nat} (hd : d.arena.scope? i = none) : c.arena.scope? i = none := by
  cases hc : c.arena.scope? i with
  | none => rfl
  | some s =>
    obtain ⟨t, ht, -⟩ := h.kept hc
    rw [ht] at hd
    cases hd

theorem trans (h₁ : Frame env names c d) (h₂ : Frame env names d e) : Frame env names c e where
  current := h₂.current.trans h₁.current
  depth := h₂.depth.trans h₁.depth
  scope i s hs hi := h₂.scope i s (h₁.scope i s hs hi) (h₁.current ▸ hi)
  here s hs := by
    obtain ⟨entries, hn, ht⟩ := h₁.here s hs
    obtain ⟨more, hm, hu⟩ := h₂.here _ (h₁.current ▸ ht)
    refine ⟨entries ++ more, fun e he => ?_, ?_⟩
    · exact (List.mem_append.mp he).elim (hn e) (hm e)
    · rw [h₁.current] at hu
      rw [hu, Table.setAll_append]
  imported name i hi := h₂.imported name i (h₁.imported name i hi)
  root name i hi := by
    rcases h₂.root name i hi with hi | ⟨hnone, hfree, hs⟩
    · rcases h₁.root name i hi with hi | ⟨hnone, hfree, s, hs, hroot⟩
      · exact Or.inl hi
      · obtain ⟨t, ht, hp⟩ := h₂.kept hs
        exact Or.inr ⟨hnone, hfree, t, ht, hp.trans hroot⟩
    · exact Or.inr ⟨h₁.imported_none hnone, h₁.scope_none hfree, hs⟩
  fresh hr i hi := by
    rcases h₂.fresh hr i hi with hi | ⟨name, hnone, hi⟩
    · rcases h₁.fresh hr i hi with hi | ⟨name, hnone, hi⟩
      · exact Or.inl hi
      · exact Or.inr ⟨name, hnone, h₂.imported name i hi⟩
    · exact Or.inr ⟨name, h₁.imported_none hnone, hi⟩
  ends hr hc := h₂.ends hr (h₁.ends hr hc)

/-! ### Elementary steps -/

/-- A change of what frames do not speak of. -/
theorem of_eq (hcur : d.current = c.current) (hdep : d.depth = c.depth) (ha : d.arena = c.arena)
    (hi : d.imported = c.imported) : Frame env names c d where
  current := hcur
  depth := hdep
  scope i s h _ := ha ▸ h
  here s h := ⟨[], by simp, ha ▸ h⟩
  imported name i h := hi ▸ h
  root name i h := Or.inl (hi ▸ h)
  fresh _ i h := Or.inl (ha ▸ h)
  ends _ h := ha ▸ h

theorem bind {name : String} (hname : name ∈ names) (c : Context) (v : Value) : Frame env names c (c.bind name v) where
  current := rfl
  depth := rfl
  scope i s h hi := (Arena.scope?_bind_of_ne hi).trans h
  here s h := ⟨[(name, v)], by simpa using hname, Arena.scope?_bind_self h⟩
  imported _ _ h := h
  root _ _ h := Or.inl h
  fresh _ i h := by
    rw [Context.bind, Arena.isLive_bind] at h
    exact Or.inl h
  ends _ h := Arena.endsLive_bind h

theorem bindAll {bindings : Table Value} (hnames : ∀ b ∈ bindings, b.1 ∈ names) (c : Context) :
    Frame env names c (bindings.foldl (fun c b => c.bind b.1 b.2) c) := by
  induction bindings generalizing c with
  | nil => exact refl c
  | cons b bindings ih =>
    exact (bind (hnames b List.mem_cons_self) c b.2).trans
      (ih (fun b' hb' => hnames b' (List.mem_cons_of_mem _ hb')) _)

/-- What is done in a scope of its own binds nothing in the scopes around it. -/
theorem leave (hf : env.Forgets) {parent : Option Nat} (h : Frame env names (c.opening parent) d) :
    Frame env ∅ c (env.discard { d with current := c.current } c.arena.length) := by
  obtain ⟨arena, hd, harena, -⟩ := hf { d with current := c.current } c.arena.length
  have hrelease : env.discard = Context.release → arena = d.arena.release c.arena.length := by
    intro hr
    rw [hr] at hd
    exact (congrArg Context.arena hd).symm
  have hscope : ∀ i s, c.arena.scope? i = some s → d.arena.scope? i = some s ∧ i ≠ c.arena.length := by
    intro i s hs
    have hi : i ≠ c.arena.length := Nat.ne_of_lt (Arena.lt_length_of_scope? hs)
    exact ⟨h.scope i s (Arena.scope?_push_of_scope? parent hs) hi, hi⟩
  have hkept : ∀ i s, c.arena.scope? i = some s → arena.scope? i = some s := by
    intro i s hs
    obtain ⟨hs, hi⟩ := hscope i s hs
    exact (harena i hi).trans hs
  -- The slot of the new scope was taken throughout, so no template imported on the way has its root there.
  have hother : ∀ i, (c.arena.push parent).scope? i = none → c.arena.scope? i = none ∧ i ≠ c.arena.length := by
    intro i hi
    rw [Arena.scope?_push] at hi
    split at hi
    · cases hi
    · exact ⟨hi, by assumption⟩
  rw [hd]
  exact
    { current := rfl
      depth := h.depth
      scope := fun i s hs _ => hkept i s hs
      here := fun s hs => ⟨[], by simp, hkept _ s hs⟩
      imported := h.imported
      root := fun name i hi => by
        rcases h.root name i hi with hi | ⟨hnone, hfree, s, hs, hroot⟩
        · exact Or.inl hi
        · obtain ⟨hfree, hne⟩ := hother i hfree
          exact Or.inr ⟨hnone, hfree, s, (harena i hne).trans hs, hroot⟩
      fresh := fun hr i hi => by
        rw [hrelease hr, Arena.isLive, Arena.scope?_release] at hi
        split at hi
        · cases hi
        · rename_i hne
          rcases h.fresh hr i hi with hi | hi
          · rw [Context.opening, Arena.isLive, Arena.scope?_push_of_ne parent hne] at hi
            exact Or.inl hi
          · exact Or.inr hi
      ends := fun hr hc => by
        obtain ⟨s, hs⟩ := Arena.isLive_iff.mp hc
        obtain ⟨hs, hne⟩ := hscope _ s hs
        rw [hrelease hr]
        exact Arena.endsLive_release (Arena.isLive_of_scope? hs) hne }

/-- A template is rendered in a scope of its own too, which is a root and stays. -/
theorem importRoot {name : String} (hname : c.imported.get? name = none) (h : Frame env names (c.importing name) d) :
    Frame env ∅ c { d with current := c.current } := by
  have hscope : ∀ i s, c.arena.scope? i = some s → d.arena.scope? i = some s := fun i s hs =>
    h.scope i s (Arena.scope?_push_of_scope? none hs) (Nat.ne_of_lt (Arena.lt_length_of_scope? hs))
  have hself := c.imported_importing name
  exact
    { current := rfl
      depth := h.depth
      scope := fun i s hs _ => hscope i s hs
      here := fun s hs => ⟨[], by simp, hscope _ s hs⟩
      imported := fun other i hi => by
        have hne : other ≠ name := by
          rintro rfl
          rw [hname] at hi
          cases hi
        exact h.imported other i ((Context.imported_importing_of_ne hne c).trans hi)
      -- The template itself counts as imported from the start, so its root is the only one that is not new inside.
      root := fun other i hi => by
        rcases h.root other i hi with hi | ⟨hnone, hfree, hs⟩
        · by_cases heq : other = name
          · subst heq
            rw [hself] at hi
            cases hi
            obtain ⟨s, hs, hp⟩ := h.kept (Arena.scope?_push_length c.arena none)
            exact Or.inr ⟨hname, Arena.scope?_length _, s, hs, hp⟩
          · exact Or.inl ((Context.imported_importing_of_ne heq c).symm.trans hi)
        · by_cases heq : other = name
          · rw [heq, hself] at hnone
            cases hnone
          · have hne : i ≠ c.arena.length := by
              rintro rfl
              rw [Context.importing, Context.opening, Arena.scope?_push_length] at hfree
              cases hfree
            exact Or.inr ⟨(Context.imported_importing_of_ne heq c).symm.trans hnone,
              (Arena.scope?_push_of_ne none hne).symm.trans hfree, hs⟩
      fresh := fun hr i hi => by
        rcases h.fresh hr i hi with hi | ⟨other, hnone, hi⟩
        · by_cases heq : i = c.arena.length
          · exact Or.inr ⟨name, hname, heq ▸ h.imported name _ hself⟩
          · rw [Context.importing, Context.opening, Arena.isLive, Arena.scope?_push_of_ne none heq] at hi
            exact Or.inl hi
        · by_cases heq : other = name
          · rw [heq, hself] at hnone
            cases hnone
          · exact Or.inr ⟨other, (Context.imported_importing_of_ne heq c).symm.trans hnone, hi⟩
      ends := fun hr _ => h.ends hr (Arena.endsLive_push _ _) }

/-- A call counts as one more while it lasts. -/
theorem deeper {depth : Nat} (h : Frame env names { c with depth } d) :
    Frame env names c { d with depth := c.depth } where
  current := h.current
  depth := rfl
  scope := h.scope
  here := h.here
  imported := h.imported
  root := h.root
  fresh := h.fresh
  ends := h.ends

end Frame

/-! ### How many bodies can still be opened -/

/-- How many more bodies can be opened inside one another: one for each template that has not been imported,
    and one for each macro call that the limit leaves. -/
def Environment.room (env : Environment) (c : Context) : Nat :=
  env.library.countP (fun e => (c.imported.get? e.2.name).isNone) + (maxCallDepth - c.depth)

theorem countP_lt_countP {α : Type} {p q : α → Bool} {a : α} :
    ∀ {l : List α}, (∀ x ∈ l, q x = true → p x = true) → a ∈ l → p a = true → q a = false → l.countP q < l.countP p
  | x :: l, hqp, ha, hpa, hqa => by
    have hle : l.countP q ≤ l.countP p := List.countP_mono_left fun y hy => hqp y (List.mem_cons_of_mem _ hy)
    rcases List.mem_cons.mp ha with rfl | ha
    · rw [List.countP_cons_of_pos hpa, List.countP_cons_of_neg (by rw [hqa]; exact Bool.false_ne_true)]
      exact Nat.lt_succ_of_le hle
    · have ih := countP_lt_countP (fun y hy => hqp y (List.mem_cons_of_mem _ hy)) ha hpa hqa
      have hx : (if q x = true then 1 else 0) ≤ if p x = true then 1 else 0 := by
        split
        · rw [if_pos (hqp x List.mem_cons_self (by assumption))]
        · exact Nat.zero_le _
      rw [List.countP_cons, List.countP_cons]
      exact Nat.add_lt_add_of_lt_of_le ih hx

namespace Environment
variable {env : Environment} {names : Set String} {c d : Context}

theorem room_le (h : Frame env names c d) : env.room d ≤ env.room c := by
  have hlib : env.library.countP (fun e => (d.imported.get? e.2.name).isNone) ≤
      env.library.countP (fun e => (c.imported.get? e.2.name).isNone) := by
    refine List.countP_mono_left fun e _ he => ?_
    rw [Option.isNone_iff_eq_none] at he ⊢
    exact h.imported_none he
  unfold room
  rw [h.depth]
  omega

/-- Importing a template of the library takes up room. -/
theorem room_import {name : String} {t : Template} (hlib : env.library.get? name = some t)
    (hname : c.imported.get? t.name = none) (arena : Arena) (i : Nat) :
    env.room { c with arena, current := i, imported := c.imported.set t.name i } < env.room c := by
  have : env.library.countP (fun e => ((c.imported.set t.name i).get? e.2.name).isNone) <
      env.library.countP (fun e => (c.imported.get? e.2.name).isNone) := by
    refine countP_lt_countP (fun e _ he => ?_) (Table.mem_of_get? hlib) (by simp [hname])
      (by simp [Table.get?_set])
    rw [Table.get?_set] at he
    split at he
    · cases he
    · exact he
  exact Nat.add_lt_add_right this _

/-- Calling a macro below the limit takes up room. -/
theorem room_call (env : Environment) (h : c.depth < maxCallDepth) :
    env.room { c with depth := c.depth + 1 } < env.room c := by
  unfold room
  dsimp only
  omega

theorem room_lt_allowance (env : Environment) (c : Context) : env.room c < env.allowance := by
  unfold room allowance
  have hle : env.library.countP (fun e => (c.imported.get? e.2.name).isNone) ≤ env.library.length :=
    List.countP_le_length
  omega

end Environment
end TemplatedSql
