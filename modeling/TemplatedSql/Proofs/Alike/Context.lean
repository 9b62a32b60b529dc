import TemplatedSql.Proofs.Alike.Call
import TemplatedSql.Proofs.Frame

/-! # Contexts up to renumbering

Two runs of a template go in step. Scopes correspond that the runs opened at the same place, and corresponding
scopes hold alike values and have corresponding parents. Scopes that no longer correspond may hold what they like:
no value that is still in sight remembers them.

Some scopes correspond throughout: those that did from the start and the roots of imported templates. What
they hold remembers only scopes of this kind, since a template is rendered without the scopes around its import
in sight. The others correspond until their block ends. -/

namespace TemplatedSql

/-! ### Corresponding scopes in two arenas -/

/-- Scopes with corresponding parents that give every name alike values. -/
structure Scope.Alike (scopes marks : Nat → Nat → Prop) (s t : Scope) : Prop where
  parent : Option.Rel scopes s.parent t.parent
  bindings : ∀ name, Option.Rel (Value.Alike scopes marks) (s.bindings.get? name) (t.bindings.get? name)

namespace Arena

/-- The slots hold scopes that are alike. -/
def AlikeAt (scopes marks : Nat → Nat → Prop) (a b : Arena) (i j : Nat) : Prop :=
  ∃ s t, a.scope? i = some s ∧ b.scope? j = some t ∧ s.Alike scopes marks t

/-- Every scope comes after its parent. -/
def Descends (arena : Arena) : Prop :=
  ∀ i s p, arena.scope? i = some s → s.parent = some p → p < i

/-- The slots without what the scopes in them hold. -/
def layout (arena : Arena) : List (Option (Option Nat)) :=
  arena.map (Option.map Scope.parent)

section
variable {S S' M : Nat → Nat → Prop} {a b : Arena} {i j : Nat}

theorem AlikeAt.mono (h : AlikeAt S M a b i j) (hS : S ≤ S') : AlikeAt S' M a b i j := by
  obtain ⟨s, t, hs, ht, hparent, hbindings⟩ := h
  exact ⟨s, t, hs, ht, hparent.imp hS, fun name => (hbindings name).imp fun v _ hv => v.alike_mono hS hv⟩

/-- Alike slots stay alike where the scopes in them do not change. -/
theorem AlikeAt.congr {a' b' : Arena} (h : AlikeAt S M a b i j) (ha : ∀ s, a.scope? i = some s → a'.scope? i = some s)
    (hb : ∀ t, b.scope? j = some t → b'.scope? j = some t) : AlikeAt S M a' b' i j := by
  obtain ⟨s, t, hs, ht, halike⟩ := h
  exact ⟨s, t, ha s hs, hb t ht, halike⟩

theorem AlikeAt.ne_length (h : AlikeAt S M a b i j) : i ≠ a.length ∧ j ≠ b.length := by
  obtain ⟨s, t, hs, ht, -⟩ := h
  exact ⟨Nat.ne_of_lt (lt_length_of_scope? hs), Nat.ne_of_lt (lt_length_of_scope? ht)⟩

/-- Where the scopes that correspond are alike, so is what is found from them outward, as long as both walks may
    visit equally many scopes, or as many as there can be below the first. -/
theorem findFrom_alike (hS : ∀ i j, S i j → AlikeAt S M a b i j) (name : String) : ∀ (n m i j : Nat),
    n = m ∨ (a.Descends ∧ b.Descends ∧ i < n ∧ j < m) → AlikeAt S M a b i j →
    Option.Rel (Value.Alike S M) (a.findFrom name n i) (b.findFrom name m j)
  | 0, 0, _, _, _, _ => .none
  | 0, m + 1, i, j, hfuel, _ => by omega
  | n + 1, 0, i, j, hfuel, _ => by omega
  | n + 1, m + 1, i, j, hfuel, h => by
    obtain ⟨s, t, hs, ht, hparent, hbindings⟩ := h
    rcases (hbindings name).eq_or with ⟨hv, hw⟩ | ⟨v, w, hv, hw, hvw⟩
    · rcases hparent.eq_or with ⟨hp, hq⟩ | ⟨p, q, hp, hq, hpq⟩
      · simp only [findFrom, hs, ht, hv, hw, hp, hq]
        exact .none
      · simp only [findFrom, hs, ht, hv, hw, hp, hq]
        refine findFrom_alike hS name n m p q ?_ (hS p q hpq)
        -- With different bounds it is the numbers of the scopes that go down, below either bound.
        rcases hfuel with hfuel | ⟨hdesc, hdesc', hi, hj⟩
        · exact Or.inl (Nat.succ.inj hfuel)
        · have hlt := hdesc i s p hs hp
          have hlt' := hdesc' j t q ht hq
          exact Or.inr ⟨hdesc, hdesc', by omega, by omega⟩
    · simp only [findFrom, hs, ht, hv, hw]
      exact .some hvw
end

/-! ### Arenas in which scopes are found alike -/

section
variable {a b : Arena} {p q : Option Nat}

theorem Descends.push (h : a.Descends) (hp : ∀ i, p = some i → i < a.length) : (a.push p).Descends := by
  intro i s j hs hj
  rw [scope?_push] at hs
  split at hs
  · rename_i hi
    cases hs
    exact hi ▸ hp j hj
  · exact h i s j hs hj

/-- Where only one slot changes, nothing must come before its parent there. -/
theorem Descends.of_forgets {a' : Arena} {i : Nat} (h : a.Descends) (ha : ∀ k, k ≠ i → a'.scope? k = a.scope? k)
    (hi : a'.scope? i = a.scope? i ∨ ∀ s p, a'.scope? i = some s → s.parent = some p → p < i) : a'.Descends := by
  intro k s j hs hj
  by_cases hk : k = i
  · subst hk
    rcases hi with hi | hi
    · exact h k s j (hi ▸ hs) hj
    · exact hi s j hs hj
  · exact h k s j (ha k hk ▸ hs) hj

theorem Descends.bind (h : a.Descends) (i : Nat) (name : String) (v : Value) : (a.bind i name v).Descends := by
  intro k s j hs hj
  rw [scope?_bind] at hs
  split at hs
  · rename_i hk
    obtain ⟨t, ht, rfl⟩ := Option.map_eq_some_iff.mp hs
    exact h k t j (hk ▸ ht) hj
  · exact h k s j hs hj

theorem length_eq_of_layout_eq (h : a.layout = b.layout) : a.length = b.length := by
  have hlen := congrArg List.length h
  rwa [layout, layout, List.length_map, List.length_map] at hlen

theorem layout_push (a : Arena) (p : Option Nat) : (a.push p).layout = a.layout ++ [some p] := by
  simp [layout, push]

theorem layout_bind (a : Arena) (i : Nat) (name : String) (v : Value) : (a.bind i name v).layout = a.layout := by
  unfold bind
  cases hs : a.scope? i with
  | none => rfl
  | some s =>
    have hlt := lt_length_of_scope? hs
    have hslot : a[i]? = some (some s) := Option.join_eq_some_iff.mp hs
    refine List.ext_getElem? fun k => ?_
    simp only [layout, List.getElem?_map, List.getElem?_set]
    split
    · rename_i hk
      subst hk
      rw [hslot]
      rfl
    · rfl

/-- Which slots are left after a block has ended depends on the layout alone. -/
theorem layout_release (a : Arena) (i : Nat) : (a.release i).layout =
    ((List.set a.layout i none).reverse.dropWhile Option.isNone).reverse := by
  have hnone : (Option.isNone ∘ Option.map Scope.parent) = (Option.isNone : Option Scope → Bool) := by
    funext slot
    cases slot <;> rfl
  have hset : List.set a.layout i none = (List.set a i none).map (Option.map Scope.parent) := by
    rw [List.map_set]
    rfl
  rw [hset, ← List.map_reverse, List.dropWhile_map, hnone, ← List.map_reverse]
  rfl

/-- Where a variable is bound in two slots at once, what was alike stays alike. -/
theorem AlikeAt.bind {S M : Nat → Nat → Prop} {i j k l : Nat} (h : AlikeAt S M a b i j) (hij : i = k ↔ j = l)
    {v w : Value} (hv : i = k → v.Alike S M w) (name : String) :
    AlikeAt S M (a.bind k name v) (b.bind l name w) i j := by
  obtain ⟨s, t, hs, ht, hparent, hbindings⟩ := h
  by_cases hi : i = k
  · have hj := hij.mp hi
    subst hi hj
    refine ⟨_, _, scope?_bind_self hs, scope?_bind_self ht, hparent, fun other => ?_⟩
    rw [Table.get?_set, Table.get?_set]
    split
    · exact .some (hv rfl)
    · exact hbindings other
  · exact ⟨s, t, (scope?_bind_of_ne hi).trans hs, (scope?_bind_of_ne (mt hij.mpr hi)).trans ht, hparent, hbindings⟩

/-- New scopes inside corresponding ones are alike. -/
theorem alikeAt_push {S M : Nat → Nat → Prop} (h : Option.Rel S p q) :
    AlikeAt S M (a.push p) (b.push q) a.length b.length :=
  ⟨_, _, scope?_push_length a p, scope?_push_length b q, h, fun _ => .none⟩

theorem AlikeAt.push {S M : Nat → Nat → Prop} {i j : Nat} (h : AlikeAt S M a b i j) :
    AlikeAt S M (a.push p) (b.push q) i j :=
  h.congr (fun _ => scope?_push_of_scope? p) (fun _ => scope?_push_of_scope? q)

end
end Arena

/-- What lookups need of two arenas: walks outward end, or the arenas have the same layout. -/
def Renumbered.Shape : Renumbered → Arena → Arena → Prop
  | .scopes, a, b => a.Descends ∧ b.Descends
  | .marks, a, b => a.layout = b.layout

namespace Renumbered.Shape
variable {renumbered : Renumbered} {a b a' b' : Arena}

theorem find?_alike {S M : Nat → Nat → Prop} {i j : Nat} (h : renumbered.Shape a b)
    (hS : ∀ i j, S i j → Arena.AlikeAt S M a b i j) (hij : Arena.AlikeAt S M a b i j) (name : String) :
    Option.Rel (Value.Alike S M) (a.find? i name) (b.find? j name) := by
  refine Arena.findFrom_alike hS name _ _ i j ?_ hij
  obtain ⟨s, t, hs, ht, -⟩ := hij
  cases renumbered with
  | scopes => exact Or.inr ⟨h.1, h.2, Arena.lt_length_of_scope? hs, Arena.lt_length_of_scope? ht⟩
  | marks => exact Or.inl (Arena.length_eq_of_layout_eq h)

theorem bind (h : renumbered.Shape a b) (i j : Nat) (name : String) (v w : Value) :
    renumbered.Shape (a.bind i name v) (b.bind j name w) := by
  cases renumbered with
  | scopes => exact ⟨h.1.bind i name v, h.2.bind j name w⟩
  | marks => exact (Arena.layout_bind a i name v).trans (h.trans (Arena.layout_bind b j name w).symm)

theorem push {S M : Nat → Nat → Prop} {p q : Option Nat} (h : renumbered.Shape a b) (hS : renumbered.Admits S M)
    (halike : ∀ i j, S i j → Arena.AlikeAt S M a b i j) (hpq : Option.Rel S p q) :
    renumbered.Shape (a.push p) (b.push q) := by
  cases renumbered with
  | scopes =>
    refine ⟨h.1.push fun i hi => ?_, h.2.push fun j hj => ?_⟩
    · subst hi
      cases hpq with
      | some hij =>
        obtain ⟨s, -, hs, -⟩ := halike _ _ hij
        exact Arena.lt_length_of_scope? hs
    · subst hj
      cases hpq with
      | some hij =>
        obtain ⟨-, t, -, ht, -⟩ := halike _ _ hij
        exact Arena.lt_length_of_scope? ht
  | marks =>
    have heq : p = q := by
      cases hpq with
      | some hij => exact congrArg some (hS.1 _ _ hij)
      | none => rfl
    have hlayout : a.layout = b.layout := h
    show (a.push p).layout = (b.push q).layout
    rw [Arena.layout_push, Arena.layout_push, hlayout, heq]

end Renumbered.Shape

/-! ### Contexts in step -/

/-- How the numbers of two runs correspond: which of them may differ, which marks correspond, and which scopes do
    from the start. -/
structure Correspondence where
  renumbered : Renumbered
  marks : Nat → Nat → Prop
  scopes : Nat → Nat → Prop

/-- The scopes that correspond throughout: those from the start, and the roots of a template in both runs. -/
def Correspondence.lasting (k : Correspondence) (c c' : Context) (i j : Nat) : Prop :=
  k.scopes i j ∨ ∃ name, c.imported.get? name = some i ∧ c'.imported.get? name = some j

/-- Contexts in which the scopes that correspond throughout and those of `frames` are alike. -/
structure Related (k : Correspondence) (frames : Nat → Nat → Prop) (c c' : Context) : Prop where
  depth : c'.depth = c.depth
  marks : ∀ n, k.marks (c.accesses + n) (c'.accesses + n)
  shape : k.renumbered.Shape c.arena c'.arena
  admits : k.renumbered.Admits (frames ⊔ k.lasting c c') k.marks
  imported : ∀ name, (c.imported.get? name).isSome = (c'.imported.get? name).isSome
  lasting : ∀ i j, k.lasting c c' i j → Arena.AlikeAt (k.lasting c c') k.marks c.arena c'.arena i j
  frames : ∀ i j, frames i j → Arena.AlikeAt (frames ⊔ k.lasting c c') k.marks c.arena c'.arena i j

/-- Where two evaluations stand: the scopes around them that correspond until their blocks end, and the current
    scope of each. -/
structure View where
  frames : Nat → Nat → Prop
  left : Nat
  right : Nat

/-- The pair of current scopes. -/
def View.here (w : View) (i j : Nat) : Prop :=
  i = w.left ∧ j = w.right

/-- Contexts that are related and whose current scopes are alike. The current scopes need not correspond: no
    value remembers the scope of a native call. -/
structure RelatedAt (k : Correspondence) (w : View) (c c' : Context) : Prop extends Related k w.frames c c' where
  left : c.current = w.left
  right : c'.current = w.right
  fits : k.renumbered.Admits (w.frames ⊔ w.here ⊔ k.lasting c c') k.marks
  here : Arena.AlikeAt (w.frames ⊔ k.lasting c c') k.marks c.arena c'.arena w.left w.right
  rooted : k.lasting c c' w.left w.right → w.frames ≤ k.lasting c c'

section
variable {k : Correspondence} {frames : Nat → Nat → Prop} {w : View} {c c' d d' : Context}

theorem Related.visible (h : Related k frames c c') (i j : Nat) (hij : (frames ⊔ k.lasting c c') i j) :
    Arena.AlikeAt (frames ⊔ k.lasting c c') k.marks c.arena c'.arena i j := by
  rcases hij with hij | hij
  · exact h.frames i j hij
  · exact (h.lasting i j hij).mono fun _ _ => Or.inr

/-- A name has alike values in contexts that are related. -/
theorem RelatedAt.find? (h : RelatedAt k w c c') (name : String) :
    Option.Rel (Value.Alike (w.frames ⊔ k.lasting c c') k.marks) (c.arena.find? c.current name)
      (c'.arena.find? c'.current name) := by
  rw [h.left, h.right]
  exact h.shape.find?_alike h.visible h.here name

theorem RelatedAt.bind (h : RelatedAt k w c c') {v v' : Value} (hv : v.Alike (w.frames ⊔ k.lasting c c') k.marks v')
    (name : String) : RelatedAt k w (c.bind name v) (c'.bind name v') := by
  have hpair : ∀ i j, (w.frames ⊔ k.lasting c c') i j → (i = c.current ↔ j = c'.current) := by
    intro i j hij
    rw [h.left, h.right]
    exact Relator.rel_eq h.fits.scopes_biUnique (hij.imp_left Or.inl) (Or.inl (Or.inr ⟨rfl, rfl⟩))
  exact
    { depth := h.depth
      marks := h.marks
      shape := h.shape.bind _ _ name v v'
      admits := h.admits
      imported := h.imported
      lasting := fun i j hij => by
        refine (h.lasting i j hij).bind (hpair i j (Or.inr hij)) (fun hi => ?_) name
        -- A value bound in a lasting scope must not remember others: from a root only lasting ones are in sight.
        have hj := (hpair i j (Or.inr hij)).mp hi
        rw [hi, hj, h.left, h.right] at hij
        exact v.alike_mono (sup_le (h.rooted hij) le_rfl) hv
      frames := fun i j hij => (h.frames i j hij).bind (hpair i j (Or.inl hij)) (fun _ => hv) name
      left := h.left
      right := h.right
      fits := h.fits
      here := h.here.bind (by rw [h.left, h.right]; exact ⟨fun _ => rfl, fun _ => rfl⟩) (fun _ => hv) name
      rooted := h.rooted }

theorem RelatedAt.bindAll {entries entries' : Table Value} (h : RelatedAt k w c c')
    (hentries : List.Forall₂ (Value.EntryAlike (w.frames ⊔ k.lasting c c') k.marks) entries entries') :
    RelatedAt k w (entries.foldl (fun c b => c.bind b.1 b.2) c) (entries'.foldl (fun c b => c.bind b.1 b.2) c') := by
  induction entries generalizing entries' c c' with
  | nil =>
    cases hentries
    exact h
  | cons e entries ih =>
    cases hentries with
    | cons he hs =>
      obtain ⟨name, hv⟩ := he
      rw [List.foldl_cons, List.foldl_cons]
      exact ih (h.bind hv name) hs

end
end TemplatedSql
