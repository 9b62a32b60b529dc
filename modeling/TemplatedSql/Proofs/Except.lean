/-! # Computations that may fail -/

namespace TemplatedSql

variable {α β ε : Type}

/-- A computation in two parts succeeds where both do. -/
theorem bind_eq_ok_iff {m : Except ε α} {f : α → Except ε β} {b : β} :
    m >>= f = .ok b ↔ ∃ a, m = .ok a ∧ f a = .ok b := by
  cases m with
  | error e =>
    constructor
    · intro h
      cases h
    · rintro ⟨a, h, -⟩
      cases h
  | ok a =>
    constructor
    · exact fun h => ⟨a, rfl, h⟩
    · rintro ⟨a', h, hf⟩
      cases h
      exact hf

/-- A computation in two parts fails where either does. -/
theorem bind_eq_error_iff {m : Except ε α} {f : α → Except ε β} {e : ε} :
    m >>= f = .error e ↔ m = .error e ∨ ∃ a, m = .ok a ∧ f a = .error e := by
  cases m with
  | error e' =>
    constructor
    · intro h
      cases h
      exact .inl rfl
    · rintro (h | ⟨a, h, -⟩)
      · cases h
        rfl
      · cases h
  | ok a =>
    constructor
    · exact fun h => .inr ⟨a, rfl, h⟩
    · rintro (h | ⟨a', h, hf⟩)
      · cases h
      · cases h
        exact hf

theorem map_eq_ok_iff {m : Except ε α} {f : α → β} {b : β} : m.map f = .ok b ↔ ∃ a, m = .ok a ∧ f a = b := by
  cases m with
  | error e =>
    constructor
    · intro h
      cases h
    · rintro ⟨a, h, -⟩
      cases h
  | ok a => simp [Except.map]

theorem map_eq_error_iff {m : Except ε α} {f : α → β} {e : ε} : m.map f = .error e ↔ m = .error e := by
  cases m <;> simp [Except.map]

theorem toOption_eq_some_iff {m : Except ε α} {a : α} : m.toOption = some a ↔ m = .ok a := by
  cases m <;> simp [Except.toOption]

/-- A computation for each item succeeds with the results of all items. -/
theorem mapM_eq_ok_iff {f : α → Except ε β} {as : List α} {bs : List β} :
    as.mapM f = .ok bs ↔ as.map f = bs.map .ok := by
  induction as generalizing bs with
  | nil =>
    cases bs with
    | nil => exact ⟨fun _ => rfl, fun _ => rfl⟩
    | cons b bs => constructor <;> intro h <;> cases h
  | cons a as ih =>
    rw [List.mapM_cons, bind_eq_ok_iff]
    constructor
    · rintro ⟨b, hb, h⟩
      obtain ⟨bs', hbs, h⟩ := bind_eq_ok_iff.mp h
      cases h
      rw [List.map_cons, List.map_cons, hb, ih.mp hbs]
    · intro h
      cases bs with
      | nil => cases h
      | cons b bs =>
        rw [List.map_cons, List.map_cons, List.cons.injEq] at h
        exact ⟨b, h.1, bind_eq_ok_iff.mpr ⟨bs, ih.mpr h.2, rfl⟩⟩

theorem exists_of_mem_mapM {f : α → Except ε β} {as : List α} {bs : List β} (h : as.mapM f = .ok bs) {b : β}
    (hb : b ∈ bs) : ∃ a ∈ as, f a = .ok b := by
  have hmem : (.ok b : Except ε β) ∈ bs.map .ok := List.mem_map_of_mem hb
  rw [← mapM_eq_ok_iff.mp h] at hmem
  exact List.mem_map.mp hmem

/-- A computation for each item fails with the error of the first item that fails. -/
theorem mapM_eq_error_of_first {f : α → Except ε β} {as : List α} {i : Nat} {a : α} {e : ε} (ha : as[i]? = some a)
    (hbefore : ∀ j a', j < i → as[j]? = some a' → ∃ b, f a' = .ok b) (he : f a = .error e) :
    as.mapM f = .error e := by
  induction as generalizing i with
  | nil => cases ha
  | cons a' as ih =>
    rw [List.mapM_cons]
    cases i with
    | zero =>
      cases ha
      rw [he]
      rfl
    | succ i =>
      obtain ⟨b, hb⟩ := hbefore 0 a' (Nat.zero_lt_succ i) rfl
      rw [hb]
      show as.mapM f >>= _ = _
      rw [ih ha fun j a'' hj => hbefore (j + 1) a'' (Nat.succ_lt_succ hj)]
      rfl

/-- What is done to each result can be done to all results in the end. -/
theorem mapM_map {γ : Type} {f : α → Except ε β} {f' : α → Except ε γ} {g : β → γ} (h : ∀ a, f' a = (f a).map g)
    (as : List α) : as.mapM f' = (as.mapM f).map (List.map g) := by
  induction as with
  | nil => rfl
  | cons a as ih =>
    rw [List.mapM_cons, List.mapM_cons, h, ih]
    cases f a with
    | error e => rfl
    | ok b => cases as.mapM f <;> rfl

/-- What is done to the result of each step can be done to that of all steps in the end. -/
theorem foldlM_map {γ δ : Type} {f : β → α → Except ε β} {f' : γ → δ → Except ε γ} {g : β → γ} {k : α → δ}
    (h : ∀ b a, f' (g b) (k a) = (f b a).map g) (as : List α) (b : β) :
    (as.map k).foldlM f' (g b) = (as.foldlM f b).map g := by
  induction as generalizing b with
  | nil => rfl
  | cons a as ih =>
    rw [List.map_cons, List.foldlM_cons, List.foldlM_cons, h]
    cases f b a with
    | error e => rfl
    | ok c => exact ih c

/-- Where two computations end alike for each item, they do for all items. -/
theorem mapM_ends_alike {f f' : α → Except ε β} {g : β → β} {R : ε → ε → Prop}
    (h : ∀ a, (∃ b, f a = .ok b ∧ f' a = .ok (g b)) ∨ ∃ e e', R e e' ∧ f a = .error e ∧ f' a = .error e')
    (as : List α) : (∃ bs, as.mapM f = .ok bs ∧ as.mapM f' = .ok (bs.map g)) ∨
      ∃ e e', R e e' ∧ as.mapM f = .error e ∧ as.mapM f' = .error e' := by
  induction as with
  | nil => exact .inl ⟨[], rfl, rfl⟩
  | cons a as ih =>
    rw [List.mapM_cons, List.mapM_cons]
    rcases h a with ⟨b, heq, heq'⟩ | ⟨e, e', hr, heq, heq'⟩
    · rcases ih with ⟨bs, hbs, hbs'⟩ | ⟨e, e', hr, hbs, hbs'⟩
      · exact .inl ⟨b :: bs, by rw [heq, hbs]; rfl, by rw [heq', hbs']; rfl⟩
      · exact .inr ⟨e, e', hr, by rw [heq, hbs]; rfl, by rw [heq', hbs']; rfl⟩
    · exact .inr ⟨e, e', hr, by rw [heq]; rfl, by rw [heq']; rfl⟩

theorem exists_of_mapM_error {f : α → Except ε β} {as : List α} {e : ε}
    (h : as.mapM f = .error e) : ∃ a ∈ as, f a = .error e := by
  induction as with
  | nil => cases h
  | cons a as ih =>
    rw [List.mapM_cons] at h
    cases ha : f a with
    | error e' =>
      rw [ha] at h
      cases h
      exact ⟨a, List.mem_cons_self, ha⟩
    | ok b =>
      cases has : as.mapM f with
      | error e' =>
        rw [ha, has] at h
        cases h
        obtain ⟨a', hmem, ha'⟩ := ih has
        exact ⟨a', List.mem_cons_of_mem _ hmem, ha'⟩
      | ok bs =>
        rw [ha, has] at h
        cases h

theorem exists_mapM_eq_ok_iff {f : α → Except ε β} {as : List α} :
    (∃ bs, as.mapM f = .ok bs) ↔ ∀ a ∈ as, ∃ b, f a = .ok b := by
  constructor
  · rintro ⟨bs, h⟩ a ha
    have hmem : f a ∈ bs.map Except.ok := mapM_eq_ok_iff.mp h ▸ List.mem_map_of_mem ha
    obtain ⟨b, -, hb⟩ := List.mem_map.mp hmem
    exact ⟨b, hb.symm⟩
  · intro h
    cases has : as.mapM f with
    | ok bs => exact ⟨bs, rfl⟩
    | error e =>
      obtain ⟨a, ha, he⟩ := exists_of_mapM_error has
      obtain ⟨b, hb⟩ := h a ha
      rw [hb] at he
      cases he

theorem exists_of_foldlM_error {f : β → α → Except ε β} {as : List α} {b : β} {e : ε}
    (h : as.foldlM f b = .error e) : ∃ a ∈ as, ∃ c, f c a = .error e := by
  induction as generalizing b with
  | nil => cases h
  | cons a as ih =>
    rw [List.foldlM_cons] at h
    rcases bind_eq_error_iff.mp h with ha | ⟨c, -, has⟩
    · exact ⟨a, List.mem_cons_self, b, ha⟩
    · obtain ⟨a', hmem, ha'⟩ := ih has
      exact ⟨a', List.mem_cons_of_mem _ hmem, ha'⟩

/-- What every step of a fold preserves holds at its end. -/
theorem foldlM_preserves {P : β → Prop} {f : β → α → Except ε β} {as : List α} {b c : β} (hb : P b)
    (step : ∀ b, ∀ a ∈ as, ∀ c, P b → f b a = .ok c → P c) (h : as.foldlM f b = .ok c) : P c := by
  induction as generalizing b with
  | nil =>
    cases h
    exact hb
  | cons a as ih =>
    rw [List.foldlM_cons] at h
    obtain ⟨b', hb', h⟩ := bind_eq_ok_iff.mp h
    exact ih (step b a List.mem_cons_self b' hb hb') (fun b a ha => step b a (List.mem_cons_of_mem _ ha)) h

end TemplatedSql
