import TemplatedSql.Project.Compile
import TemplatedSql.Proofs.Unplaced.Render

/-! # Moving what a file says does not change its SQL

The names that a project gives to its templates have no macros, and its functions make their values from strings and
from the configuration, or give an argument back. So a file may be laid out in another way: as long as its body is the
same without places, it compiles to the same SQL, or fails for the same cause. -/

namespace TemplatedSql

/-! ### Values from a configuration -/

section
variable {S M : Nat → Nat → Prop}

namespace Value

/-- A value that is like one by no scopes has no macros. -/
theorem scopes_eq_nil {v w : Value} (h : v.Alike ⊥ M w) : v.scopes = [] :=
  List.eq_nil_iff_forall_not_mem.mpr fun i hi => (v.exists_of_mem_scopes h i hi).elim fun _ hij => hij

theorem insertEntry_alike {v w : Value} (hvw : v.Alike S M w) (key : String) {es fs : List (String × Value)}
    (h : List.Forall₂ (EntryAlike S M) es fs) :
    List.Forall₂ (EntryAlike S M) (insertEntry key v es) (insertEntry key w fs) := by
  induction h with
  | nil => exact .cons (.mk key hvw) .nil
  | cons he hs ih =>
    obtain ⟨other, hother⟩ := he
    simp only [insertEntry]
    split
    · exact .cons (.mk key hvw) (.cons (.mk other hother) hs)
    · split
      · exact .cons (.mk key hvw) hs
      · exact .cons (.mk other hother) ih

theorem ofEntries_alike {es fs : List (String × Value)} (h : List.Forall₂ (EntryAlike S M) es fs) :
    (ofEntries es).Alike S M (ofEntries fs) := by
  have hfold : ∀ {es fs done done' : List (String × Value)}, List.Forall₂ (EntryAlike S M) es fs →
      List.Forall₂ (EntryAlike S M) done done' →
      List.Forall₂ (EntryAlike S M) (es.foldl (fun es e => insertEntry e.1 e.2 es) done)
        (fs.foldl (fun es e => insertEntry e.1 e.2 es) done') := by
    intro es fs done done' h
    induction h generalizing done done' with
    | nil => exact id
    | cons he _ ih =>
      obtain ⟨key, hvw⟩ := he
      exact fun hdone => ih (insertEntry_alike hvw key hdone)
  exact .mapping (hfold h .nil)

mutual

theorem ofToml_alike : ∀ v : Toml.Value, (ofToml v).Alike S M (ofToml v)
  | .string _ | .datetime _ => by
    rw [ofToml]
    exact .string _
  | .integer _ | .float _ => by
    rw [ofToml]
    exact .number _
  | .boolean _ => by
    rw [ofToml]
    exact .boolean _
  | .array items => by
    rw [ofToml]
    exact .list (ofTomlItems_alike items)
  | .table entries => by
    rw [ofToml]
    exact ofEntries_alike (ofTomlEntries_alike entries)

theorem ofTomlItems_alike : ∀ vs : List Toml.Value,
    List.Forall₂ (Value.Alike S M) (ofTomlItems vs) (ofTomlItems vs)
  | [] => by
    rw [ofTomlItems]
    exact .nil
  | v :: vs => by
    rw [ofTomlItems]
    exact .cons (ofToml_alike v) (ofTomlItems_alike vs)

theorem ofTomlEntries_alike : ∀ es : List (String × Toml.Value),
    List.Forall₂ (EntryAlike S M) (ofTomlEntries es) (ofTomlEntries es)
  | [] => by
    rw [ofTomlEntries]
    exact .nil
  | (key, v) :: es => by
    rw [ofTomlEntries]
    exact .cons (.mk key (ofToml_alike v)) (ofTomlEntries_alike es)

end

theorem ofTarget_alike (target : Target) : target.value.Alike S M target.value := by
  refine ofEntries_alike (.cons (.mk _ (.string _)) (.cons (.mk _ (.string _)) ?_))
  cases target.database with
  | none => exact .nil
  | some d => exact .cons (.mk _ (.string d)) .nil

end Value

/-! ### The functions of a project -/

namespace Project
variable (p : Project) {as bs : List Argument}

theorem orDefault_alike {found : Option Value} (hfound : ∀ v ∈ found, v.Alike S M v)
    (h : List.Forall₂ (Argument.Alike S M) as bs) (missing : String) :
    ExceptRel (Value.Alike S M) (orDefault found as missing) (orDefault found bs missing) := by
  have hself : Option.Rel (Value.Alike S M) found found := by
    cases found with
    | none => exact .none
    | some v => exact .some (hfound v rfl)
  unfold orDefault
  rcases (hself.orElse (Argument.find?_alike h 1 "default")).eq_or with ⟨ha, hb⟩ | ⟨v, w, ha, hb, hvw⟩
  · rw [ha, hb]
    exact .error _
  · rw [ha, hb]
    exact .ok hvw

/-- The functions of a project do the same with arguments that are alike. -/
theorem functions_alike {name : String} {act : List Argument → Except Cause Value} (hact : (name, act) ∈ p.functions)
    (h : List.Forall₂ (Argument.Alike S M) as bs) : ExceptRel (Value.Alike S M) (act as) (act bs) := by
  simp only [functions, List.mem_cons, List.not_mem_nil, or_false, Prod.mk.injEq] at hact
  rcases hact with ⟨-, rfl⟩ | ⟨-, rfl⟩ | ⟨-, rfl⟩ | ⟨-, rfl⟩ | ⟨-, rfl⟩
  · unfold refFunction
    rw [Argument.string_eq h]
    refine (ExceptRel.refl _).bind fun name _ heq => ?_
    subst heq
    cases p.catalog.model? name with
    | none => exact .error _
    | some f => exact .ok (.string _)
  · unfold sourceFunction
    rw [Argument.string_eq h, Argument.string_eq h]
    refine (ExceptRel.refl _).bind fun source _ heq => ?_
    subst heq
    refine (ExceptRel.refl _).bind fun table _ heq => ?_
    subst heq
    exact .ok (.string _)
  · unfold varFunction
    rw [Argument.string_eq h]
    refine (ExceptRel.refl _).bind fun name _ heq => ?_
    subst heq
    refine orDefault_alike (fun v hv => ?_) h _
    obtain ⟨w, -, rfl⟩ := Option.map_eq_some_iff.mp hv
    exact Value.ofToml_alike w
  · unfold envVarFunction
    rw [Argument.string_eq h]
    refine (ExceptRel.refl _).bind fun name _ heq => ?_
    subst heq
    refine orDefault_alike (fun v hv => ?_) h _
    obtain ⟨s, -, rfl⟩ := Option.map_eq_some_iff.mp hv
    exact .string s
  · exact .ok .undefined

theorem environment_uniform (f : SourceFile) (renumbered : Renumbered) :
    ∀ host ∈ (p.environment f).hosts, host.Uniform renumbered := by
  intro host hhost S M q as bs _ h
  obtain ⟨⟨name, act⟩, hact, rfl⟩ := List.mem_map.mp hhost
  exact Action.ofExcept_alike (p.functions_alike hact h)

end Project

end

/-! ### Places in the macros of arguments -/

section
variable (h : Position → Position)

namespace Value

theorem insertEntry_relocate (key : String) (v : Value) (es : List (String × Value)) :
    insertEntry key (v.relocate h) (relocateEntries h es) = relocateEntries h (insertEntry key v es) := by
  induction es with
  | nil => rfl
  | cons e es ih =>
    obtain ⟨k, w⟩ := e
    simp only [relocateEntries, insertEntry, ih]
    split
    · rfl
    · split <;> rfl

theorem ofEntries_relocate (es : List (String × Value)) :
    (ofEntries es).relocate h = ofEntries (relocateEntries h es) := by
  have hfold (es done : List (String × Value)) :
      (relocateEntries h es).foldl (fun es e => insertEntry e.1 e.2 es) (relocateEntries h done) =
        relocateEntries h (es.foldl (fun es e => insertEntry e.1 e.2 es) done) := by
    induction es generalizing done with
    | nil => rfl
    | cons e es ih =>
      simp only [relocateEntries, List.foldl_cons, insertEntry_relocate]
      exact ih _
  exact congrArg mapping (hfold es []).symm

mutual

theorem ofToml_relocate : ∀ v : Toml.Value, (ofToml v).relocate h = ofToml v
  | .string _ | .integer _ | .float _ | .boolean _ | .datetime _ => by
    simp only [ofToml, relocate]
  | .array items => by
    simp only [ofToml, relocate, ofTomlItems_relocate items]
  | .table entries => by
    simp only [ofToml, ofEntries_relocate, ofTomlEntries_relocate entries]

theorem ofTomlItems_relocate : ∀ vs : List Toml.Value, relocateAll h (ofTomlItems vs) = ofTomlItems vs
  | [] => by
    simp only [ofTomlItems, relocateAll]
  | v :: vs => by
    simp only [ofTomlItems, relocateAll, ofToml_relocate v, ofTomlItems_relocate vs]

theorem ofTomlEntries_relocate : ∀ es : List (String × Toml.Value),
    relocateEntries h (ofTomlEntries es) = ofTomlEntries es
  | [] => by
    simp only [ofTomlEntries, relocateEntries]
  | (key, v) :: es => by
    simp only [ofTomlEntries, relocateEntries, ofToml_relocate v, ofTomlEntries_relocate es]

end

end Value

namespace Project
variable (p : Project)

theorem orDefault_relocate {found : Option Value} (hfound : found.map (Value.relocate h) = found) (as : List Argument)
    (missing : String) :
    orDefault found (as.map (Argument.relocate h)) missing = (orDefault found as missing).map (Value.relocate h) := by
  unfold orDefault
  rw [Argument.find?_relocate]
  cases found with
  | some v => exact congrArg Except.ok (Option.some.inj hfound).symm
  | none => cases Argument.find? as 1 "default" <;> rfl

/-- The functions of a project do not look into macros. -/
theorem functions_relocate {name : String} {act : List Argument → Except Cause Value} (hact : (name, act) ∈ p.functions)
    (as : List Argument) : act (as.map (Argument.relocate h)) = (act as).map (Value.relocate h) := by
  simp only [functions, List.mem_cons, List.not_mem_nil, or_false, Prod.mk.injEq] at hact
  rcases hact with ⟨-, rfl⟩ | ⟨-, rfl⟩ | ⟨-, rfl⟩ | ⟨-, rfl⟩ | ⟨-, rfl⟩
  · unfold refFunction
    rw [Argument.string_relocate]
    cases Argument.string as 0 "name" "ref" with
    | error cause => rfl
    | ok name =>
      dsimp only [bind, Except.bind]
      cases p.catalog.model? name <;> rfl
  · unfold sourceFunction
    rw [Argument.string_relocate, Argument.string_relocate]
    cases Argument.string as 0 "source_name" "source" with
    | error cause => rfl
    | ok source => cases Argument.string as 1 "table_name" "source" <;> rfl
  · unfold varFunction
    rw [Argument.string_relocate]
    cases Argument.string as 0 "name" "var" with
    | error cause => rfl
    | ok name =>
      refine orDefault_relocate h ?_ as s!"var `{name}` is not defined"
      cases p.config.vars.lookup name with
      | none => rfl
      | some v => exact congrArg some (Value.ofToml_relocate h v)
  · unfold envVarFunction
    rw [Argument.string_relocate]
    cases Argument.string as 0 "name" "env_var" with
    | error cause => rfl
    | ok name =>
      refine orDefault_relocate h ?_ as s!"environment variable `{name}` is not set"
      cases p.processVariables.get? name <;> rfl
  · rfl

theorem environment_placeless (f : SourceFile) : (p.environment f).Placeless where
  release := rfl
  hosts host hhost := by
    obtain ⟨⟨name, act⟩, hact, rfl⟩ := List.mem_map.mp hhost
    exact fun h _ _ as => Action.relocated_ofExcept (p.functions_relocate h hact as)

end Project

end

/-! ### The names of a project -/

theorem Table.get?_setAll_eq_some {α : Type} {t entries : Table α} {name : String} {v : α}
    (h : (t.setAll entries).get? name = some v) : (name, v) ∈ entries ∨ t.get? name = some v := by
  induction entries generalizing t with
  | nil => exact .inr h
  | cons e entries ih =>
    rcases ih (t := t.set e.1 e.2) h with hmem | hset
    · exact .inl (List.mem_cons_of_mem _ hmem)
    · rw [Table.get?_set] at hset
      split at hset
      · rename_i heq
        cases hset
        exact .inl (heq ▸ List.mem_cons_self)
      · exact .inr hset

namespace Project
variable (p : Project)

/-- The templates of a project see the target, the functions of the project, each by its own name, and the built-in
    functions. -/
theorem globals_cases {name : String} {v : Value} (h : p.globals.get? name = some v) :
    v = p.config.target.value ∨ (∃ i f, p.functions[i]? = some f ∧ v = .function (.host i f.1)) ∨
      ∃ b, v = .function (.builtin b) := by
  rw [globals, Table.get?_set] at h
  split at h
  · cases h
    exact .inl rfl
  · rcases Table.get?_setAll_eq_some h with hmem | hbuiltin
    · obtain ⟨⟨f, i⟩, hf, heq⟩ := List.mem_map.mp hmem
      cases heq
      exact .inr (.inl ⟨i, f, List.mem_zipIdx_iff_getElem?.mp hf, rfl⟩)
    · obtain ⟨b, -, heq⟩ := List.mem_map.mp (Table.mem_of_get? hbuiltin)
      cases heq
      exact .inr (.inr ⟨b, rfl⟩)

/-- Besides, a model sees the name of its relation. -/
theorem overlay_string {f : SourceFile} {name : String} {v : Value} (h : (p.environment f).overlay.get? name = some v) :
    ∃ s, v = .string s := by
  have hmem := Table.mem_of_get? h
  simp only [environment] at hmem
  split at hmem
  · cases List.mem_singleton.mp hmem
    exact ⟨_, rfl⟩
  · cases hmem

theorem globals_scopes {name : String} {v : Value} (h : p.globals.get? name = some v) : v.scopes = [] := by
  rcases p.globals_cases h with rfl | ⟨i, f, -, rfl⟩ | ⟨b, rfl⟩
  · exact Value.scopes_eq_nil (M := Eq) (Value.ofTarget_alike p.config.target)
  · rfl
  · rfl

theorem overlay_scopes {f : SourceFile} {name : String} {v : Value}
    (h : (p.environment f).overlay.get? name = some v) : v.scopes = [] := by
  obtain ⟨s, rfl⟩ := p.overlay_string h
  rfl

/-- Two files of the same path and kind whose bodies are the same without places compile to the same SQL, or both fail
    for the same cause. -/
theorem compileFile_of_unplaced_eq {f f' : SourceFile} (hpath : f'.path = f.path) (hkind : f'.kind = f.kind)
    {t t' : Template} (ht : f.template = .ok t) (ht' : f'.template = .ok t') (h : t.body.unplaced = t'.body.unplaced) :
    (∃ sql, (p.compileFile f).result = .ok sql ∧ (p.compileFile f').result = .ok sql) ∨
      ∃ cause q q', (p.compileFile f).result = .error ⟨f.path, ⟨q, cause⟩⟩ ∧
        (p.compileFile f').result = .error ⟨f.path, ⟨q', cause⟩⟩ := by
  have henv : p.environment f' = p.environment f := by
    rw [environment, environment, SourceFile.name, SourceFile.name, hpath, hkind]
  have hrender := Session.render_coincide (p.environment_placeless f) (p.environment_uniform f .marks)
    (fun _ _ => p.globals_scopes) (fun _ _ => p.overlay_scopes) h
  unfold compileFile
  rw [ht, ht', henv, hpath]
  dsimp only
  generalize Session.render (p.environment f) t.body .initial = o at hrender
  generalize Session.render (p.environment f) t'.body .initial = o' at hrender
  cases hrender with
  | @done text _ _ _ heq _ =>
    cases heq
    exact .inl ⟨text, rfl, rfl⟩
  | @failed e e' _ _ hcause _ =>
    refine .inr ⟨e.cause, e.position, e'.position, rfl, ?_⟩
    rw [hcause]
  | exhausted => exact .inr ⟨_, _, _, rfl, rfl⟩

/-- A comment inside a text and line breaks inside a tag are places and nothing else. -/
example : ∃ body, (Body.ofSource "ab\x7b\x7b x \x7d\x7d").map Body.unplaced = .ok body ∧
    (Body.ofSource "a\x7b# c #\x7db\x7b\x7b\n  x\n\x7d\x7d").map Body.unplaced = .ok body :=
  ⟨⟨.start, [.text .start "ab", .output .start (.name .start "x")]⟩, by cbv, by cbv⟩

end Project

end TemplatedSql
