import TemplatedSql.Proofs.Alike.Operator

/-! # Calls with alike arguments

A macro binds alike arguments to its parameters alike. A native function is uniform where it takes the values it
is given and reads for what they are up to renumbering: all that it does with alike values is alike. The built-in
functions and the methods are. -/

namespace TemplatedSql

/-- Arguments with the same name and alike values. -/
inductive Argument.Alike (scopes marks : Nat → Nat → Prop) : Argument → Argument → Prop
  | mk {v w} (name : Option String) (h : v.Alike scopes marks w) : Argument.Alike scopes marks ⟨name, v⟩ ⟨name, w⟩

section
variable {α β : Type} {r : α → β → Prop}

theorem find?_rel {p : α → Bool} {q : β → Bool} (hpq : ∀ a b, r a b → p a = q b) {as : List α} {bs : List β}
    (h : List.Forall₂ r as bs) : Option.Rel r (as.find? p) (bs.find? q) := by
  induction h with
  | nil => exact .none
  | @cons a b as bs h _ ih =>
    rw [List.find?_cons, List.find?_cons, hpq a b h]
    cases q b with
    | true => exact .some h
    | false => exact ih

end

section
variable {S M : Nat → Nat → Prop} {as bs : List Argument}

/-! ### Finding arguments -/

namespace Argument

theorem Alike.name_eq {a b : Argument} (h : a.Alike S M b) : a.name = b.name := by
  cases h
  rfl

theorem Alike.value_alike {a b : Argument} (h : a.Alike S M b) : a.value.Alike S M b.value := by
  cases h with
  | mk name h => exact h

theorem Alike.mono {S' : Nat → Nat → Prop} {a b : Argument} (h : a.Alike S M b) (hS : S ≤ S') : a.Alike S' M b := by
  obtain ⟨name, hv⟩ := h
  exact .mk name (Value.alike_mono hS _ hv)

theorem allAlike_imp {S' : Nat → Nat → Prop} (h : List.Forall₂ (Argument.Alike S M) as bs)
    (hS : ∀ a ∈ as, ∀ i ∈ a.value.scopes, S i ≤ S' i) : List.Forall₂ (Argument.Alike S' M) as bs := by
  induction h with
  | nil => exact .nil
  | cons h _ ih =>
    obtain ⟨name, hv⟩ := h
    exact .cons (.mk name (Value.alike_imp _ hv (hS _ List.mem_cons_self)))
      (ih fun a ha => hS a (List.mem_cons_of_mem _ ha))

theorem allAlike_mono {S' : Nat → Nat → Prop} (hS : S ≤ S') (h : List.Forall₂ (Argument.Alike S M) as bs) :
    List.Forall₂ (Argument.Alike S' M) as bs :=
  allAlike_imp h fun _ _ i _ => hS i

theorem positional_alike (h : List.Forall₂ (Argument.Alike S M) as bs) :
    List.Forall₂ (Argument.Alike S M) (as.filter (·.name.isNone)) (bs.filter (·.name.isNone)) :=
  List.rel_filter (fun a b hab => by dsimp only; rw [hab.name_eq]) h

theorem find?_alike (h : List.Forall₂ (Argument.Alike S M) as bs) (place : Nat) (name : String) :
    Option.Rel (Value.Alike S M) (find? as place name) (find? bs place name) := by
  have hnamed : Option.Rel (Argument.Alike S M) (as.find? (·.name == some name)) (bs.find? (·.name == some name)) :=
    find?_rel (fun _ _ hab => by rw [hab.name_eq]) h
  exact (hnamed.orElse (forall₂_getElem? (positional_alike h) place)).map fun _ _ hab => hab.value_alike

theorem string_eq (h : List.Forall₂ (Argument.Alike S M) as bs) (place : Nat) (name function : String) :
    string as place name function = string bs place name function := by
  unfold string
  rcases (find?_alike h place name).eq_or with ⟨ha, hb⟩ | ⟨v, w, ha, hb, hvw⟩
  · rw [ha, hb]
  · rw [ha, hb]
    cases hvw <;> rfl

theorem string?_eq (h : List.Forall₂ (Argument.Alike S M) as bs) (place : Nat) (name function : String) :
    string? as place name function = string? bs place name function := by
  unfold string?
  rw [string_eq h place name function]
  rcases (find?_alike h place name).eq_or with ⟨ha, hb⟩ | ⟨v, w, ha, hb, hvw⟩
  · rw [ha, hb]
  · rw [ha, hb]
    cases hvw <;> rfl

theorem integer_eq {a b : Argument} (h : a.Alike S M b) : a.integer = b.integer := by
  obtain ⟨name, h⟩ := h
  cases h <;> rfl

end Argument

/-! ### Binding parameters -/

theorem MacroDef.place_alike (d : MacroDef) (h : List.Forall₂ (Argument.Alike S M) as bs) :
    List.Forall₂ (Option.Rel (Value.Alike S M)) (d.place as) (d.place bs) := by
  unfold MacroDef.place
  rw [h.length_eq]
  refine List.rel_append (List.rel_map (fun _ _ hab => Option.Rel.some hab.value_alike) h) ?_
  refine List.forall₂_same.mpr fun v hv => ?_
  rw [(List.mem_replicate.mp hv).2]
  exact .none

theorem MacroDef.replace_alike (d : MacroDef) {vs ws : List (Option Value)} {a b : Argument}
    (h : List.Forall₂ (Option.Rel (Value.Alike S M)) vs ws) (hab : a.Alike S M b) :
    ExceptRel (List.Forall₂ (Option.Rel (Value.Alike S M))) (d.replace vs a) (d.replace ws b) := by
  unfold MacroDef.replace
  rw [hab.name_eq]
  dsimp only
  cases d.parameters.findIdx? (·.name == b.name.getD "") with
  | none => exact .error _
  | some i => exact .ok (forall₂_set h i (.some hab.value_alike))

theorem MacroDef.complete_alike (d : MacroDef) {x y : Parameter × Option Value} (hxy : x.1 = y.1)
    (h : Option.Rel (Value.Alike S M) x.2 y.2) : ExceptRel (Value.EntryAlike S M) (d.complete x) (d.complete y) := by
  obtain ⟨p, v⟩ := x
  obtain ⟨q, w⟩ := y
  obtain rfl : p = q := hxy
  have hdefault : Option.Rel (Value.Alike S M) (p.default.map Value.ofLiteral) (p.default.map Value.ofLiteral) := by
    cases p.default with
    | none => exact .none
    | some l => exact .some (Value.ofLiteral_alike l)
  unfold MacroDef.complete
  dsimp only
  rcases (h.orElse hdefault).eq_or with ⟨ha, hb⟩ | ⟨v, w, ha, hb, hvw⟩
  · rw [ha, hb]
    exact .error _
  · rw [ha, hb]
    exact .ok (.mk p.name hvw)

/-- The parameters of a macro get alike values from alike arguments. -/
theorem MacroDef.bindArguments_alike (d : MacroDef) (h : List.Forall₂ (Argument.Alike S M) as bs) :
    ExceptRel (List.Forall₂ (Value.EntryAlike S M)) (d.bindArguments as) (d.bindArguments bs) := by
  have hpositional := Argument.positional_alike h
  have hnamed : List.Forall₂ (Argument.Alike S M) (as.filter (·.name.isSome)) (bs.filter (·.name.isSome)) :=
    List.rel_filter (fun a b hab => by dsimp only; rw [hab.name_eq]) h
  unfold MacroDef.bindArguments
  dsimp only
  rw [hpositional.length_eq]
  split
  · exact .error _
  · have hreplaced := ExceptRel.foldlM (r := Argument.Alike S M) (fun _ _ _ _ hvs => d.replace_alike hvs) hnamed
      (d.place_alike hpositional)
    refine hreplaced.bind fun vs ws hvs => ?_
    exact ExceptRel.mapM (fun _ _ hxy => d.complete_alike hxy.1 hxy.2) (forall₂_zip hvs d.parameters)

/-! ### Methods and built-in functions -/

theorem StringMethod.apply_alike (m : StringMethod) (s : String) (h : List.Forall₂ (Argument.Alike S M) as bs) :
    ExceptRel (Value.Alike S M) (m.apply s as) (m.apply s bs) := by
  have htext : ∀ cs : List Char, (Value.string (.ofList cs)).Alike S M (.string (.ofList cs)) := fun cs => .string _
  have hrequired := fun place name => Argument.string_eq h place name m.name
  have hoptional := fun name => Argument.string?_eq h 0 name m.name
  unfold StringMethod.apply
  dsimp only
  simp only [hrequired, hoptional]
  cases m with
  | upper => exact .ok (htext _)
  | lower => exact .ok (htext _)
  | strip =>
    refine (ExceptRel.refl _).bind fun drop _ heq => ?_
    subst heq
    cases drop with
    | some drop => exact .ok (htext _)
    | none => exact .ok (htext _)
  | replace =>
    refine (ExceptRel.refl _).bind fun old _ heq => ?_
    subst heq
    refine (ExceptRel.refl _).bind fun new _ heq => ?_
    subst heq
    exact .ok (htext _)
  | split =>
    refine (ExceptRel.refl _).bind fun sep _ heq => ?_
    subst heq
    rcases sep with _ | _ | ⟨c, sep⟩
    · exact .ok (Value.ofTexts_alike _)
    · exact .ok (Value.ofTexts_alike _)
    · exact .ok (Value.ofTexts_alike _)
  | startsWith =>
    refine (ExceptRel.refl _).bind fun start _ heq => ?_
    subst heq
    exact .ok (.boolean _)
  | endsWith =>
    refine (ExceptRel.refl _).bind fun ending _ heq => ?_
    subst heq
    exact .ok (.boolean _)
  | join =>
    rcases (Argument.find?_alike h 0 "items").eq_or with ⟨ha, hb⟩ | ⟨v, w, ha, hb, hvw⟩
    · simp only [ha, hb]
      exact .error _
    · simp only [ha, hb]
      cases hvw with
      | @list vs ws hitems =>
        have htexts : vs.map (fun v => v.text.toList) = ws.map fun v => v.text.toList := by
          clear ha hb
          induction hitems with
          | nil => rfl
          | cons hv _ ih => rw [List.map_cons, List.map_cons, hv.text_eq, ih]
        dsimp only
        rw [htexts]
        exact .ok (htext _)
      | _ => exact .error _

theorem MappingMethod.apply_alike (m : MappingMethod) {es fs : List (String × Value)}
    (hes : List.Forall₂ (Value.EntryAlike S M) es fs) (h : List.Forall₂ (Argument.Alike S M) as bs) :
    (m.apply es as).Alike S M (m.apply fs bs) := by
  cases m with
  | keys => exact .list (List.rel_map (fun _ _ ⟨key, _⟩ => .string key) hes)
  | values => exact .list (List.rel_map (fun _ _ ⟨_, hv⟩ => hv) hes)
  | items => exact .list (List.rel_map (fun _ _ ⟨key, hv⟩ => .list (.cons (.string key) (.cons hv .nil))) hes)
  | get =>
    unfold MappingMethod.apply
    dsimp only
    refine Option.Rel.getD (Option.Rel.orElse ?_ (Argument.find?_alike h 1 "default")) .undefined
    rcases (Argument.find?_alike h 0 "key").eq_or with ⟨ha, hb⟩ | ⟨v, w, ha, hb, hvw⟩
    · rw [ha, hb]
      exact .none
    · rw [ha, hb]
      cases hvw with
      | string key => exact lookup_alike hes key
      | _ => exact .none

theorem rangeValue_alike (h : List.Forall₂ (Argument.Alike S M) as bs) :
    ExceptRel (Value.Alike S M) (rangeValue as) (rangeValue bs) := by
  have hitems : ∀ items : Except Cause (List Int), ExceptRel (Value.Alike S M)
      (items >>= fun items => .ok (.list (items.map fun i => .number (.ofInt i))))
      (items >>= fun items => .ok (.list (items.map fun i => .number (.ofInt i)))) := by
    intro items
    refine (ExceptRel.refl items).bind fun items _ heq => ?_
    subst heq
    refine .ok (.list ?_)
    rw [List.forall₂_map_left_iff, List.forall₂_map_right_iff, List.forall₂_same]
    exact fun i _ => .number _
  unfold rangeValue
  refine (ExceptRel.mapM (fun a b hab => ?_) h).bind (r := List.Forall₂ Eq) fun bounds _ heq => ?_
  · rw [Argument.integer_eq hab]
    exact .refl _
  · rw [List.forall₂_eq_eq_eq] at heq
    subst heq
    dsimp only
    split
    · exact hitems _
    · exact hitems _
    · exact hitems _
    · exact hitems _

theorem lenValue_alike (h : List.Forall₂ (Argument.Alike S M) as bs) :
    ExceptRel (Value.Alike S M) (lenValue as) (lenValue bs) := by
  unfold lenValue
  dsimp only
  rcases (Argument.find?_alike h 0 "value").eq_or with ⟨ha, hb⟩ | ⟨v, w, ha, hb, hvw⟩
  · rw [ha, hb]
    exact .error _
  · rw [ha, hb]
    cases hvw with
    | string s => exact .ok (.number _)
    | list h =>
      dsimp only
      rw [h.length_eq]
      exact .ok (.number _)
    | mapping h =>
      dsimp only
      rw [h.length_eq]
      exact .ok (.number _)
    | _ => exact .error _

end

/-! ### What native functions do with alike arguments -/

/-- Which of the numbers two runs may give differently: those of scopes, or the marks of methods. -/
inductive Renumbered
  | scopes
  | marks

/-- The correspondences that two runs may have: one to one for the numbers that differ, equality for the others. -/
def Renumbered.Admits : Renumbered → (S M : Nat → Nat → Prop) → Prop
  | .scopes, S, M => Relator.BiUnique S ∧ ∀ i j, M i j → i = j
  | .marks, S, M => (∀ i j, S i j → i = j) ∧ Relator.BiUnique M

theorem biUnique_of_eq {r : Nat → Nat → Prop} (h : ∀ i j, r i j → i = j) : Relator.BiUnique r :=
  ⟨fun i j k hi hj => (h i k hi).trans (h j k hj).symm, fun i j k hj hk => (h i j hj).symm.trans (h i k hk)⟩

namespace Renumbered.Admits
variable {renumbered : Renumbered} {S S' M : Nat → Nat → Prop}

theorem mono (h : renumbered.Admits S' M) (hS : S ≤ S') : renumbered.Admits S M := by
  cases renumbered with
  | scopes =>
    obtain ⟨⟨hleft, hright⟩, heq⟩ := h
    exact ⟨⟨fun _ _ _ hi hj => hleft (hS _ _ hi) (hS _ _ hj), fun _ _ _ hi hj => hright (hS _ _ hi) (hS _ _ hj)⟩, heq⟩
  | marks => exact ⟨fun i j hij => h.1 i j (hS i j hij), h.2⟩

theorem scopes_biUnique (h : renumbered.Admits S M) : Relator.BiUnique S := by
  cases renumbered with
  | scopes => exact h.1
  | marks => exact biUnique_of_eq h.1

theorem marks_biUnique (h : renumbered.Admits S M) : Relator.BiUnique M := by
  cases renumbered with
  | scopes => exact biUnique_of_eq h.2
  | marks => exact h.2

end Renumbered.Admits

/-- Actions that do the same with alike values. Of the values that are read it is only known that they are
    alike, by a correspondence with more scopes. -/
inductive Action.Alike (renumbered : Renumbered) (marks : Nat → Nat → Prop) :
    (Nat → Nat → Prop) → Action → Action → Prop
  | finish {S v w} (h : v.Alike S marks w) : Action.Alike renumbered marks S (.finish v) (.finish w)
  | fail {S} (cause : Cause) : Action.Alike renumbered marks S (.fail cause) (.fail cause)
  | log {S a b} (message : String) (h : Action.Alike renumbered marks S a b) :
    Action.Alike renumbered marks S (.log message a) (.log message b)
  | read {S f g} (name : String) (h : ∀ S' v w, S ≤ S' → renumbered.Admits S' marks →
      v.Alike S' marks w → Action.Alike renumbered marks S' (f v) (g w)) :
    Action.Alike renumbered marks S (.read name f) (.read name g)
  | bind {S v w a b} (name : String) (hv : v.Alike S marks w) (h : Action.Alike renumbered marks S a b) :
    Action.Alike renumbered marks S (.bind name v a) (.bind name w b)

/-- A native function that makes its values from those it is given and those it reads, without regard to the
    numbers in them: with alike arguments it does the same. -/
def HostFunction.Uniform (renumbered : Renumbered) (f : HostFunction) : Prop :=
  ∀ S M p as bs, renumbered.Admits S M → List.Forall₂ (Argument.Alike S M) as bs →
    Action.Alike renumbered M S (f.act p as) (f.act p bs)

section
variable {renumbered : Renumbered} {S M : Nat → Nat → Prop} {as bs : List Argument}

theorem Action.ofExcept_alike {a b : Except Cause Value} (h : ExceptRel (Value.Alike S M) a b) :
    Action.Alike renumbered M S (.ofExcept a) (.ofExcept b) := by
  cases h with
  | ok h => exact .finish h
  | error e => exact .fail e

theorem Builtin.act_alike (b : Builtin) (h : List.Forall₂ (Argument.Alike S M) as bs) :
    Action.Alike renumbered M S (b.act as) (b.act bs) := by
  have hmessage : (Argument.find? as 0 "msg").map Value.text = (Argument.find? bs 0 "msg").map Value.text := by
    rcases (Argument.find?_alike h 0 "msg").eq_or with ⟨ha, hb⟩ | ⟨v, w, ha, hb, hvw⟩
    · rw [ha, hb]
    · rw [ha, hb]
      exact congrArg some hvw.text_eq
  unfold Builtin.act
  dsimp only
  rw [hmessage]
  cases b with
  | range => exact Action.ofExcept_alike (rangeValue_alike h)
  | len => exact Action.ofExcept_alike (lenValue_alike h)
  | log => exact .log _ (.finish .undefined)
  | raiseError => exact .fail _

/-- Alike functions do the same with alike arguments, where the functions of the host do. -/
theorem Eval.action_alike {env env' : Environment} (hhosts : env'.hosts = env.hosts)
    (huniform : ∀ f ∈ env.hosts, f.Uniform renumbered) (hadmits : renumbered.Admits S M) (p : Position) {f g : Function}
    (hf : f.Alike S M g) (h : List.Forall₂ (Argument.Alike S M) as bs) :
    Action.Alike renumbered M S (Eval.action env p as f) (Eval.action env' p bs g) := by
  cases hf with
  | builtin b => exact b.act_alike h
  | stringMethod _ s m => exact Action.ofExcept_alike (m.apply_alike s h)
  | mappingMethod _ hes m => exact .finish (m.apply_alike hes h)
  | host key name =>
    unfold Eval.action
    dsimp only
    rw [hhosts]
    cases hkey : env.hosts[key]? with
    | none => exact .finish .undefined
    | some f => exact huniform f (List.mem_of_getElem? hkey) S M p as bs hadmits h
  | defined => exact .finish .undefined

end
end TemplatedSql
