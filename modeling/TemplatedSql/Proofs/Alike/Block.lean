import TemplatedSql.Proofs.Alike.Context

/-! # Blocks in step

Two runs that open a scope at the same place put it into slots that nothing in sight remembers. When the block has
ended, the scopes around it are as they were, and of the new ones only the roots of templates are left. So the
runs are in step again without the scope of the block, whether it is given back or not. -/

namespace TemplatedSql

/-! ### Correspondences that grow -/

namespace Renumbered.Admits
variable {renumbered : Renumbered} {S T T' M : Nat → Nat → Prop}

/-- Correspondences fit together where what is new in one of them has nothing to do with the other. -/
theorem sup (h : renumbered.Admits (S ⊔ T) M) (h' : renumbered.Admits T' M)
    (hnew : ∀ i j, T' i j → T i j ∨ (∀ j', ¬S i j') ∧ ∀ i', ¬S i' j) : renumbered.Admits (S ⊔ T') M := by
  cases renumbered with
  | scopes =>
    -- Two pairs of the same kind fit as before; where the kinds differ, the pair of `T'` has to be an old one.
    obtain ⟨⟨hleft, hright⟩, heq⟩ := h
    obtain ⟨⟨hleft', hright'⟩, -⟩ := h'
    refine ⟨⟨?_, ?_⟩, heq⟩
    · rintro i j l (hi | hi) (hj | hj)
      · exact hleft (Or.inl hi) (Or.inl hj)
      · rcases hnew j l hj with hold | ⟨-, hnone⟩
        · exact hleft (Or.inl hi) (Or.inr hold)
        · exact absurd hi (hnone i)
      · rcases hnew i l hi with hold | ⟨-, hnone⟩
        · exact hleft (Or.inr hold) (Or.inl hj)
        · exact absurd hj (hnone j)
      · exact hleft' hi hj
    · rintro i j l (hj | hj) (hl | hl)
      · exact hright (Or.inl hj) (Or.inl hl)
      · rcases hnew i l hl with hold | ⟨hnone, -⟩
        · exact hright (Or.inl hj) (Or.inr hold)
        · exact absurd hj (hnone j)
      · rcases hnew i j hj with hold | ⟨hnone, -⟩
        · exact hright (Or.inr hold) (Or.inl hl)
        · exact absurd hl (hnone l)
      · exact hright' hj hl
  | marks =>
    refine ⟨?_, h.2⟩
    rintro i j (hij | hij)
    · exact h.1 i j (Or.inl hij)
    · exact h'.1 i j hij

/-- A pair of slots that occur in no other pair may correspond. -/
theorem pair {i j : Nat} (h : renumbered.Admits S M) (heq : renumbered = .marks → i = j)
    (hnew : ∀ a b, S a b → a ≠ i ∧ b ≠ j) : renumbered.Admits (fun a b => S a b ∨ a = i ∧ b = j) M := by
  have hpair : renumbered.Admits (fun a b => a = i ∧ b = j) M := by
    cases renumbered with
    | scopes => exact ⟨⟨fun _ _ _ ha hb => ha.1.trans hb.1.symm, fun _ _ _ ha hb => ha.2.trans hb.2.symm⟩, h.2⟩
    | marks =>
      refine ⟨?_, h.2⟩
      rintro a b ⟨rfl, rfl⟩
      exact heq rfl
  refine @sup renumbered S ⊥ _ M (h.mono fun a b hab => ?_) hpair fun a b hab => Or.inr ?_
  · exact hab.elim id False.elim
  · obtain ⟨rfl, rfl⟩ := hab
    exact ⟨fun b hb => (hnew a b hb).1 rfl, fun a ha => (hnew a b ha).2 rfl⟩

end Renumbered.Admits

section
variable {env env' : Environment} {names names' : Set String} {k : Correspondence} {frames : Nat → Nat → Prop}
  {w : View} {c c' d d' : Context}

theorem lasting_le (hframe : Frame env names c d) (hframe' : Frame env' names' c' d') :
    k.lasting c c' ≤ k.lasting d d' := by
  rintro i j (hij | ⟨name, hi, hj⟩)
  · exact Or.inl hij
  · exact Or.inr ⟨name, hframe.imported name i hi, hframe'.imported name j hj⟩

/-- The roots of templates that two runs import meanwhile lie in slots that were free. -/
theorem lasting_or_free (himported : ∀ name, (c.imported.get? name).isSome = (c'.imported.get? name).isSome)
    (hframe : Frame env names c d) (hframe' : Frame env' names' c' d') {i j : Nat} (hij : k.lasting d d' i j) :
    k.lasting c c' i j ∨ c.arena.scope? i = none ∧ c'.arena.scope? j = none := by
  rcases hij with hij | ⟨name, hi, hj⟩
  · exact Or.inl (Or.inl hij)
  · have hname := himported name
    rcases hframe.root name i hi with hi | ⟨hnone, hfree, -⟩
    · rcases hframe'.root name j hj with hj | ⟨hnone, -⟩
      · exact Or.inl (Or.inr ⟨name, hi, hj⟩)
      · rw [hi, hnone] at hname
        cases hname
    · rcases hframe'.root name j hj with hj | ⟨-, hfree', -⟩
      · rw [hj, hnone] at hname
        cases hname
      · exact Or.inr ⟨hfree, hfree'⟩

/-- What two runs do inside blocks of their own leaves the scopes around the blocks in step. -/
theorem Related.around (h : Related k frames c c') (hframe : Frame env ∅ c d) (hframe' : Frame env' ∅ c' d')
    (hd : Related k ⊥ d d') : Related k frames d d' where
  depth := hd.depth
  marks := hd.marks
  shape := hd.shape
  admits := h.admits.sup (hd.admits.mono le_sup_right) fun i j hij => by
    rcases lasting_or_free h.imported hframe hframe' hij with hold | ⟨hi, hj⟩
    · exact Or.inl hold
    · refine Or.inr ⟨fun b hb => ?_, fun a ha => ?_⟩
      · obtain ⟨s, -, hs, -⟩ := h.frames i b hb
        rw [hi] at hs
        cases hs
      · obtain ⟨-, t, -, ht, -⟩ := h.frames a j ha
        rw [hj] at ht
        cases ht
  imported := hd.imported
  lasting := hd.lasting
  frames i j hij := ((h.frames i j hij).congr (fun _ => hframe.scope_of_empty) (fun _ => hframe'.scope_of_empty)).mono
    (sup_le_sup_left (lasting_le hframe hframe') frames)

theorem RelatedAt.around (h : RelatedAt k w c c') (hframe : Frame env ∅ c d) (hframe' : Frame env' ∅ c' d')
    (hd : Related k ⊥ d d') : RelatedAt k w d d' := by
  obtain ⟨s, t, hs, ht, hst⟩ := h.here
  have hfree : ∀ {i j}, k.lasting d d' i j → k.lasting c c' i j ∨ c.arena.scope? i = none ∧ c'.arena.scope? j = none :=
    lasting_or_free h.imported hframe hframe'
  exact
    { h.toRelated.around hframe hframe' hd with
      left := hframe.current.trans h.left
      right := hframe'.current.trans h.right
      fits := h.fits.sup (hd.admits.mono le_sup_right) fun i j hij => by
        rcases hfree hij with hold | ⟨hi, hj⟩
        · exact Or.inl hold
        · refine Or.inr ⟨?_, ?_⟩
          · rintro b (hb | ⟨rfl, -⟩)
            · obtain ⟨s, -, hs, -⟩ := h.frames i b hb
              rw [hi] at hs
              cases hs
            · rw [hi] at hs
              cases hs
          · rintro a (ha | ⟨-, rfl⟩)
            · obtain ⟨-, t, -, ht, -⟩ := h.frames a j ha
              rw [hj] at ht
              cases ht
            · rw [hj] at ht
              cases ht
      here := (h.here.congr (fun _ => hframe.scope_of_empty) (fun _ => hframe'.scope_of_empty)).mono
        (sup_le_sup_left (lasting_le hframe hframe') w.frames)
      rooted := fun hij => by
        rcases hfree hij with hold | ⟨hi, -⟩
        · exact (h.rooted hold).trans (lasting_le hframe hframe')
        · rw [hi] at hs
          cases hs }

/-! ### Opening a scope -/

theorem Related.length_eq (h : Related k frames c c') (hmarks : k.renumbered = .marks) :
    c.arena.length = c'.arena.length := by
  have hshape := h.shape
  rw [hmarks] at hshape
  exact Arena.length_eq_of_layout_eq hshape

/-- New scopes inside corresponding ones. No value remembers them yet, so they need not correspond. -/
theorem Related.push (h : Related k frames c c') {p q : Option Nat} (hpq : Option.Rel (frames ⊔ k.lasting c c') p q) :
    RelatedAt k ⟨frames, c.arena.length, c'.arena.length⟩ (c.opening p) (c'.opening q) where
  depth := h.depth
  marks := h.marks
  shape := h.shape.push h.admits h.visible hpq
  admits := h.admits
  imported := h.imported
  lasting i j hij := (h.lasting i j hij).push
  frames i j hij := (h.frames i j hij).push
  left := rfl
  right := rfl
  fits := by
    refine (h.admits.pair h.length_eq fun i j hij => (h.visible i j hij).ne_length).mono ?_
    rintro i j ((hij | hij) | hij)
    · exact Or.inl (Or.inl hij)
    · exact Or.inr hij
    · exact Or.inl (Or.inr hij)
  here := Arena.alikeAt_push hpq
  rooted hij := absurd rfl (h.lasting _ _ hij).ne_length.1

/-- From now on the current scopes correspond, until their blocks end. -/
theorem RelatedAt.own (h : RelatedAt k w c c') (hnew : ¬k.lasting c c' w.left w.right) :
    RelatedAt k { w with frames := w.frames ⊔ w.here } c c' where
  depth := h.depth
  marks := h.marks
  shape := h.shape
  admits := h.fits
  imported := h.imported
  lasting := h.lasting
  frames i j hij := by
    have hle : w.frames ⊔ k.lasting c c' ≤ w.frames ⊔ w.here ⊔ k.lasting c c' := sup_le_sup_right le_sup_left _
    rcases hij with hij | ⟨rfl, rfl⟩
    · exact (h.frames i j hij).mono hle
    · exact h.here.mono hle
  left := h.left
  right := h.right
  fits := by
    refine h.fits.mono (sup_le_sup_right (sup_le le_rfl ?_) _)
    exact le_sup_right
  here := h.here.mono (sup_le_sup_right le_sup_left _)
  rooted hij := absurd hij hnew

/-- The view from two scopes that correspond until their blocks end. -/
def View.block (frames : Nat → Nat → Prop) (i j : Nat) : View :=
  ⟨frames ⊔ View.here ⟨frames, i, j⟩, i, j⟩

theorem Related.block (h : Related k frames c c') {p q : Nat} (hpq : (frames ⊔ k.lasting c c') p q) :
    RelatedAt k (.block frames c.arena.length c'.arena.length) (c.opening (some p)) (c'.opening (some q)) :=
  (h.push (.some hpq)).own fun hlast => absurd rfl (h.lasting _ _ hlast).ne_length.1

theorem lasting_importing {name : String} {i j : Nat} (hij : k.lasting (c.importing name) (c'.importing name) i j) :
    k.lasting c c' i j ∨ i = c.arena.length ∧ j = c'.arena.length := by
  rcases hij with hij | ⟨other, hi, hj⟩
  · exact Or.inl (Or.inl hij)
  · simp only [Context.importing, Table.get?_set] at hi hj
    split at hi
    · rename_i heq
      rw [if_pos heq] at hj
      cases hi
      cases hj
      exact Or.inr ⟨rfl, rfl⟩
    · rename_i hne
      rw [if_neg hne] at hj
      exact Or.inl (Or.inr ⟨other, hi, hj⟩)

theorem lasting_le_importing {name : String} (hname : c.imported.get? name = none) :
    k.lasting c c' ≤ k.lasting (c.importing name) (c'.importing name) := by
  rintro i j (hij | ⟨other, hi, hj⟩)
  · exact Or.inl hij
  · have hne : other ≠ name := by
      rintro rfl
      rw [hname] at hi
      cases hi
    exact Or.inr ⟨other, (Context.imported_importing_of_ne hne c).trans hi,
      (Context.imported_importing_of_ne hne c').trans hj⟩

/-- The new roots of a template that both runs start to import correspond throughout. -/
theorem lasting_root (c c' : Context) (name : String) :
    k.lasting (c.importing name) (c'.importing name) c.arena.length c'.arena.length :=
  Or.inr ⟨name, c.imported_importing name, c'.imported_importing name⟩

theorem Related.importing (h : Related k frames c c') {name : String} (hname : c.imported.get? name = none) :
    RelatedAt k ⟨⊥, c.arena.length, c'.arena.length⟩ (c.importing name) (c'.importing name) := by
  have hle : k.lasting c c' ≤ k.lasting (c.importing name) (c'.importing name) := lasting_le_importing hname
  have hadmits : k.renumbered.Admits (k.lasting (c.importing name) (c'.importing name)) k.marks :=
    ((h.admits.mono le_sup_right).pair h.length_eq fun i j hij => (h.lasting i j hij).ne_length).mono
      fun _ _ => lasting_importing
  have hhere : Arena.AlikeAt (k.lasting (c.importing name) (c'.importing name)) k.marks
      (c.importing name).arena (c'.importing name).arena c.arena.length c'.arena.length :=
    Arena.alikeAt_push .none
  exact
    { depth := h.depth
      marks := h.marks
      shape := h.shape.push h.admits h.visible .none
      admits := hadmits.mono (sup_le bot_le le_rfl)
      imported := fun other => by
        simp only [Context.importing, Table.get?_set]
        split
        · rfl
        · exact h.imported other
      lasting := fun i j hij => by
        rcases lasting_importing hij with hold | ⟨rfl, rfl⟩
        · exact ((h.lasting i j hold).push).mono hle
        · exact hhere
      frames := fun i j hij => hij.elim
      left := rfl
      right := rfl
      fits := hadmits.mono (sup_le (sup_le bot_le (by rintro i j ⟨rfl, rfl⟩; exact lasting_root c c' name)) le_rfl)
      here := hhere.mono le_sup_right
      rooted := fun _ => bot_le }

/-! ### Leaving it -/

theorem RelatedAt.forget (h : RelatedAt k w d d')
    (hw : ∀ i j, k.lasting d d' i j → i ≠ w.left ∧ j ≠ w.right) (hf : env.Forgets) (hf' : env'.Forgets)
    (hrelease : k.renumbered = .marks → env.discard = Context.release ∧ env'.discard = Context.release) (i j : Nat) :
    Related k ⊥ (env.discard { d with current := i } w.left) (env'.discard { d' with current := j } w.right) := by
  obtain ⟨arena, hd, harena, hgone⟩ := hf { d with current := i } w.left
  obtain ⟨arena', hd', harena', hgone'⟩ := hf' { d' with current := j } w.right
  have hshape : k.renumbered.Shape arena arena' := by
    have hold := h.shape
    have hfits := h.fits
    cases hk : k.renumbered with
    | scopes =>
      rw [hk] at hold
      exact ⟨hold.1.of_forgets harena hgone, hold.2.of_forgets harena' hgone'⟩
    | marks =>
      -- Both sides give back the same slot here, so the slots that are left are the same again.
      rw [hk] at hold hfits
      obtain ⟨hr, hr'⟩ := hrelease hk
      rw [hr] at hd
      rw [hr'] at hd'
      have harena : d.arena.release w.left = arena := congrArg Context.arena hd
      have harena' : d'.arena.release w.right = arena' := congrArg Context.arena hd'
      have hleft : w.left = w.right := hfits.1 _ _ (Or.inl (Or.inr ⟨rfl, rfl⟩))
      have hlayout : d.arena.layout = d'.arena.layout := hold
      show arena.layout = arena'.layout
      rw [← harena, ← harena', Arena.layout_release, Arena.layout_release, hlayout, hleft]
  rw [hd, hd']
  exact
    { depth := h.depth
      marks := h.marks
      shape := hshape
      admits := h.admits.mono (sup_le_sup_right bot_le _)
      imported := h.imported
      lasting := fun a b hab => by
        obtain ⟨ha, hb⟩ := hw a b hab
        refine (h.lasting a b hab).congr (fun s hs => ?_) fun t ht => ?_
        · exact (harena a ha).trans hs
        · exact (harena' b hb).trans ht
      frames := fun a b hab => hab.elim }

theorem lasting_discard (hf : env.Forgets) (hf' : env'.Forgets) (i j l r : Nat) :
    k.lasting (env.discard { d with current := i } l) (env'.discard { d' with current := j } r) = k.lasting d d' := by
  obtain ⟨arena, hd, -, -⟩ := hf { d with current := i } l
  obtain ⟨arena', hd', -, -⟩ := hf' { d' with current := j } r
  rw [hd, hd']
  rfl

/-- No template imported inside a block has its root in the slot of the block. -/
theorem Related.ne_length_of_lasting (h : Related k frames c c') {p q : Option Nat}
    (hframe : Frame env names (c.opening p) d) (hframe' : Frame env' names' (c'.opening q) d') {i j : Nat}
    (hij : k.lasting d d' i j) : i ≠ c.arena.length ∧ j ≠ c'.arena.length := by
  rcases lasting_or_free (by exact h.imported) hframe hframe' hij with hold | ⟨hi, hj⟩
  · exact (h.lasting i j hold).ne_length
  · constructor
    · rintro rfl
      rw [Context.opening, Arena.scope?_push_length] at hi
      cases hi
    · rintro rfl
      rw [Context.opening, Arena.scope?_push_length] at hj
      cases hj

/-- Where nothing but the lasting scopes matters. -/
theorem Related.lastingOnly (h : Related k frames c c') : Related k ⊥ c c' where
  depth := h.depth
  marks := h.marks
  shape := h.shape
  admits := h.admits.mono (sup_le_sup_right bot_le _)
  imported := h.imported
  lasting := h.lasting
  frames _ _ hij := hij.elim

end
end TemplatedSql
