import TemplatedSql.Eval.Render
import TemplatedSql.Proofs.Alike.Value

/-! # Operators on alike values

Where scopes and marks correspond one to one, an operator on alike values gives alike values or fails with the
same error. -/

namespace Option.Rel
variable {α β γ δ : Type} {r : α → β → Prop} {s : γ → δ → Prop} {a a' : Option α} {b b' : Option β}

/-- Either both are there or neither is. -/
theorem eq_or (h : Option.Rel r a b) :
    a = Option.none ∧ b = Option.none ∨ ∃ x y, a = Option.some x ∧ b = Option.some y ∧ r x y := by
  cases h with
  | some h => exact Or.inr ⟨_, _, rfl, rfl, h⟩
  | none => exact Or.inl ⟨rfl, rfl⟩

theorem imp {r' : α → β → Prop} (hr : ∀ x y, r x y → r' x y) (h : Option.Rel r a b) : Option.Rel r' a b := by
  cases h with
  | some h => exact .some (hr _ _ h)
  | none => exact .none

theorem map {f : α → γ} {g : β → δ} (hf : ∀ x y, r x y → s (f x) (g y)) (h : Option.Rel r a b) :
    Option.Rel s (a.map f) (b.map g) := by
  cases h with
  | some h => exact .some (hf _ _ h)
  | none => exact .none

theorem orElse (h : Option.Rel r a b) (h' : Option.Rel r a' b') : Option.Rel r (a <|> a') (b <|> b') := by
  cases h with
  | some h => exact .some h
  | none => exact h'

theorem getD {x : α} {y : β} (h : Option.Rel r a b) (hd : r x y) : r (a.getD x) (b.getD y) := by
  cases h with
  | some h => exact h
  | none => exact hd

end Option.Rel

namespace TemplatedSql

/-- Results that correspond, or the same error. -/
inductive ExceptRel {ε α β : Type} (r : α → β → Prop) : Except ε α → Except ε β → Prop
  | ok {a b} (h : r a b) : ExceptRel r (.ok a) (.ok b)
  | error (e : ε) : ExceptRel r (.error e) (.error e)

namespace ExceptRel
variable {ε α β γ δ : Type} {r : α → β → Prop} {s : γ → δ → Prop}

theorem refl (a : Except ε α) : ExceptRel Eq a a := by
  cases a with
  | ok a => exact .ok rfl
  | error e => exact .error e

theorem map {f : α → γ} {g : β → δ} {a : Except ε α} {b : Except ε β} (hf : ∀ x y, r x y → s (f x) (g y))
    (h : ExceptRel r a b) : ExceptRel s (a.map f) (b.map g) := by
  cases h with
  | ok h => exact .ok (hf _ _ h)
  | error e => exact .error e

theorem bind {f : α → Except ε γ} {g : β → Except ε δ} {a : Except ε α} {b : Except ε β} (h : ExceptRel r a b)
    (hf : ∀ x y, r x y → ExceptRel s (f x) (g y)) : ExceptRel s (a >>= f) (b >>= g) := by
  cases h with
  | ok h => exact hf _ _ h
  | error e => exact .error e

theorem mapM {f : α → Except ε γ} {g : β → Except ε δ} (hf : ∀ x y, r x y → ExceptRel s (f x) (g y)) {as : List α}
    {bs : List β} (h : List.Forall₂ r as bs) : ExceptRel (List.Forall₂ s) (as.mapM f) (bs.mapM g) := by
  induction h with
  | nil => exact .ok .nil
  | cons h hs ih =>
    rw [List.mapM_cons, List.mapM_cons]
    exact (hf _ _ h).bind fun x y hxy => ih.bind fun xs ys hxys => .ok (.cons hxy hxys)

theorem foldlM {f : γ → α → Except ε γ} {g : δ → β → Except ε δ}
    (hf : ∀ x y a b, s x y → r a b → ExceptRel s (f x a) (g y b)) {as : List α} {bs : List β} (h : List.Forall₂ r as bs)
    {x : γ} {y : δ} (hxy : s x y) : ExceptRel s (as.foldlM f x) (bs.foldlM g y) := by
  induction h generalizing x y with
  | nil => exact .ok hxy
  | cons h _ ih =>
    rw [List.foldlM_cons, List.foldlM_cons]
    exact (hf _ _ _ _ hxy h).bind fun _ _ hxy => ih hxy

end ExceptRel

theorem forall₂_getElem? {α β : Type} {r : α → β → Prop} {as : List α} {bs : List β} (h : List.Forall₂ r as bs)
    (i : Nat) : Option.Rel r as[i]? bs[i]? := by
  induction h generalizing i with
  | nil => exact .none
  | cons h _ ih =>
    cases i with
    | zero => exact .some h
    | succ i => exact ih i

theorem forall₂_set {α β : Type} {r : α → β → Prop} {as : List α} {bs : List β} (h : List.Forall₂ r as bs) (i : Nat)
    {a : α} {b : β} (hab : r a b) : List.Forall₂ r (as.set i a) (bs.set i b) := by
  induction h generalizing i with
  | nil => exact .nil
  | cons h hs ih =>
    cases i with
    | zero => exact .cons hab hs
    | succ i => exact .cons h (ih i)

theorem forall₂_zip {α β γ : Type} {r : α → β → Prop} {as : List α} {bs : List β} (h : List.Forall₂ r as bs)
    (cs : List γ) : List.Forall₂ (fun x y => x.1 = y.1 ∧ r x.2 y.2) (cs.zip as) (cs.zip bs) := by
  induction h generalizing cs with
  | nil =>
    rw [List.zip_nil_right, List.zip_nil_right]
    exact .nil
  | cons h _ ih =>
    cases cs with
    | nil => exact .nil
    | cons c cs => exact .cons ⟨rfl, h⟩ (ih cs)

theorem forall₂_zipIdx {α β : Type} {r : α → β → Prop} {as : List α} {bs : List β} (h : List.Forall₂ r as bs)
    (start : Nat) : List.Forall₂ (fun a b => r a.1 b.1 ∧ a.2 = b.2) (as.zipIdx start) (bs.zipIdx start) := by
  induction h generalizing start with
  | nil => exact .nil
  | cons h _ ih => exact .cons ⟨h, rfl⟩ (ih (start + 1))

section
variable {S M : Nat → Nat → Prop}

/-- Entries that are alike have alike values under every key. -/
theorem lookup_alike {es fs : List (String × Value)} (h : List.Forall₂ (Value.EntryAlike S M) es fs) (key : String) :
    Option.Rel (Value.Alike S M) (es.lookup key) (fs.lookup key) := by
  induction h with
  | nil => exact .none
  | cons h _ ih =>
    obtain ⟨k, h⟩ := h
    rw [List.lookup_cons, List.lookup_cons]
    cases key == k with
    | true => exact .some h
    | false => exact ih

namespace Value

theorem ofLiteral_alike (l : Literal) : (ofLiteral l).Alike S M (ofLiteral l) := by
  cases l with
  | boolean b => exact .boolean b
  | number n => exact .number n
  | string s => exact .string s

theorem ofTexts_alike (texts : List (List Char)) : (ofTexts texts).Alike S M (ofTexts texts) := by
  refine .list ?_
  rw [List.forall₂_map_left_iff, List.forall₂_map_right_iff, List.forall₂_same]
  exact fun cs _ => .string _

theorem order_eq (op : BinaryOp) {v v' w w' : Value} (hv : v.Alike S M v') (hw : w.Alike S M w') :
    order op v w = order op v' w' := by
  cases hv <;> cases hw <;> rfl

theorem add_alike {v v' w w' : Value} (hv : v.Alike S M v') (hw : w.Alike S M w') :
    ExceptRel (Value.Alike S M) (add v w) (add v' w') := by
  cases hv with
  | number a =>
    cases hw with
    | number b => exact .ok (.number _)
    | _ => exact .error _
  | string a =>
    cases hw with
    | string b => exact .ok (.string _)
    | _ => exact .error _
  | list h =>
    cases hw with
    | list h' => exact .ok (.list (List.rel_append h h'))
    | _ => exact .error _
  | _ => cases hw <;> exact .error _

theorem arithmetic_alike (op : BinaryOp) (f : Float → Float → Float) {v v' w w' : Value} (hv : v.Alike S M v')
    (hw : w.Alike S M w') : ExceptRel (Value.Alike S M) (arithmetic op f v w) (arithmetic op f v' w') := by
  cases hv with
  | number a =>
    cases hw with
    | number b => exact .ok (.number _)
    | _ => exact .error _
  | _ => cases hw <;> exact .error _

theorem division_alike (op : BinaryOp) (f : Float → Float → Float) {v v' w w' : Value} (hv : v.Alike S M v')
    (hw : w.Alike S M w') : ExceptRel (Value.Alike S M) (division op f v w) (division op f v' w') := by
  cases hv with
  | number a =>
    cases hw with
    | number b =>
      unfold division
      dsimp only
      split
      · exact .error _
      · exact .ok (.number _)
    | _ => exact .error _
  | _ => cases hw <;> exact .error _

theorem negate_alike {v w : Value} (h : v.Alike S M w) : ExceptRel (Value.Alike S M) v.negate w.negate := by
  cases h with
  | number n => exact .ok (.number _)
  | _ => exact .error _

theorem itemAt_alike {α β : Type} {r : α → β → Prop} {as : List α} {bs : List β} (h : List.Forall₂ r as bs)
    (n : Float) :
    ExceptRel (Option.Rel r) (itemAt as n) (itemAt bs n) := by
  unfold itemAt
  cases Number.integer? n with
  | none => exact .error _
  | some i =>
    refine .ok ?_
    rw [h.length_eq]
    generalize (if i < 0 then (bs.length : Int) + i else i) = place
    split
    · exact .none
    · exact forall₂_getElem? h _

theorem index_alike {v v' w w' : Value} (hv : v.Alike S M v') (hw : w.Alike S M w') :
    ExceptRel (Value.Alike S M) (v.index w) (v'.index w') := by
  cases hv with
  | undefined => exact .ok .undefined
  | list h =>
    cases hw with
    | undefined => exact .ok .undefined
    | number n => exact (itemAt_alike h n).map fun _ _ hab => hab.getD .undefined
    | _ => exact .error _
  | string s =>
    cases hw with
    | undefined => exact .ok .undefined
    | number n =>
      refine (ExceptRel.refl (itemAt s.toList n)).map fun a b hab => ?_
      subst hab
      cases a with
      | none => exact .undefined
      | some c => exact .string _
    | _ => exact .error _
  | mapping h =>
    cases hw with
    | undefined => exact .ok .undefined
    | string key => exact .ok ((lookup_alike h key).getD .undefined)
    | _ => exact .error _
  | _ =>
    cases hw with
    | undefined => exact .ok .undefined
    | _ => exact .error _

/-- Attribute accesses with corresponding marks give alike values. -/
theorem member_alike {i j : Nat} (hij : M i j) (name : String) {v w : Value} (h : v.Alike S M w) :
    (v.member i name).Alike S M (w.member j name) := by
  cases h with
  | string s =>
    unfold member
    cases StringMethod.all.find? (·.name == name) with
    | none => exact .undefined
    | some m => exact .function (.stringMethod hij s m)
  | @mapping es fs h =>
    rcases (lookup_alike h name).eq_or with ⟨ha, hb⟩ | ⟨a, b, ha, hb, hab⟩
    · simp only [member, ha, hb]
      cases MappingMethod.all.find? (·.name == name) with
      | none => exact .undefined
      | some m => exact .function (.mappingMethod hij h m)
    · simp only [member, ha, hb]
      exact hab
  | _ => exact .undefined

section
variable (hS : Relator.BiUnique S) (hM : Relator.BiUnique M)
include hS hM

theorem contains_eq {v v' w w' : Value} (hv : v.Alike S M v') (hw : w.Alike S M w') :
    contains v w = contains v' w' := by
  cases hv with
  | list h =>
    have hany : ∀ {as bs : List Value}, List.Forall₂ (Value.Alike S M) as bs →
        (as.any fun item => item.same w) = bs.any fun item => item.same w' := by
      intro as bs h
      induction h with
      | nil => rfl
      | cons h _ ih => rw [List.any_cons, List.any_cons, same_eq hS hM _ h hw, ih]
    exact congrArg Except.ok (hany h)
  | @mapping es fs h =>
    cases hw with
    | string key =>
      have hkey : (es.lookup key).isSome = (fs.lookup key).isSome := by
        rcases (lookup_alike h key).eq_or with ⟨ha, hb⟩ | ⟨a, b, ha, hb, -⟩
        · rw [ha, hb]
        · rw [ha, hb]
          rfl
      exact congrArg Except.ok hkey
    | _ => rfl
  | _ => cases hw <;> rfl

/-- The result of a binary operator does not depend on the numbers. -/
theorem binary_alike (op : BinaryOp) {v v' w w' : Value} (hv : v.Alike S M v') (hw : w.Alike S M w') :
    ExceptRel (Value.Alike S M) (binary op v w) (binary op v' w') := by
  have hordered : ∀ test : Ordering → Bool, ExceptRel (Value.Alike S M)
      ((order op v w).map fun o => boolean (test o)) ((order op v' w').map fun o => boolean (test o)) := by
    intro test
    rw [order_eq op hv hw]
    exact (ExceptRel.refl _).map fun a b (hab : a = b) => hab ▸ .boolean _
  have hsame := same_eq hS hM v hv hw
  have hcontains := contains_eq hS hM hw hv
  cases op with
  | or =>
    refine .ok ?_
    rw [hv.truthy_eq]
    split
    · exact hv
    · exact hw
  | and =>
    refine .ok ?_
    rw [hv.truthy_eq]
    split
    · exact hw
    · exact hv
  | eq => exact .ok (hsame ▸ .boolean _)
  | notEq => exact .ok (hsame ▸ .boolean _)
  | lt => exact hordered _
  | ltEq => exact hordered _
  | gt => exact hordered _
  | gtEq => exact hordered _
  | isIn =>
    unfold binary
    rw [hcontains]
    exact (ExceptRel.refl _).map fun a b (hab : a = b) => hab ▸ .boolean _
  | notIn =>
    unfold binary
    rw [hcontains]
    exact (ExceptRel.refl _).map fun a b (hab : a = b) => hab ▸ .boolean _
  | add => exact add_alike hv hw
  | sub => exact arithmetic_alike _ _ hv hw
  | mul => exact arithmetic_alike _ _ hv hw
  | div => exact division_alike _ _ hv hw
  | mod => exact division_alike _ _ hv hw

end
end Value

/-! ### Loops -/

theorem loopInfo_alike (round rounds : Nat) : (loopInfo round rounds).Alike S M (loopInfo round rounds) :=
  .mapping (.cons (.mk _ (.boolean _)) (.cons (.mk _ (.number _)) (.cons (.mk _ (.number _))
    (.cons (.mk _ (.boolean _)) (.cons (.mk _ (.number _)) .nil)))))

/-- Loops over alike values have rounds that bind alike values. -/
theorem loopRounds_alike (p : Position) (targets : Targets) (iterable : Expr) {v w : Value} (h : v.Alike S M w) :
    ExceptRel (List.Forall₂ (List.Forall₂ (Value.EntryAlike S M))) (loopRounds p targets iterable v)
      (loopRounds p targets iterable w) := by
  cases h with
  | list h =>
    cases targets with
    | one name => exact .ok (List.rel_map (fun _ _ hv => .cons (.mk name hv) .nil) h)
    | two first second =>
      refine ExceptRel.mapM (fun v w hv => ?_) h
      cases hv with
      | list h =>
        rcases h with _ | ⟨ha, _ | ⟨hb, _ | ⟨_, _⟩⟩⟩
        · exact .error _
        · exact .error _
        · exact .ok (.cons (.mk first ha) (.cons (.mk second hb) .nil))
        · exact .error _
      | _ => exact .error _
  | mapping h =>
    cases targets with
    | one name => exact .ok (List.rel_map (fun _ _ ⟨key, _⟩ => .cons (.mk name (.string key)) .nil) h)
    | two first second =>
      exact .ok (List.rel_map (fun _ _ ⟨key, hv⟩ => .cons (.mk first (.string key)) (.cons (.mk second hv) .nil)) h)
  | undefined => exact .error _
  | _ => exact .error _

end

end TemplatedSql
