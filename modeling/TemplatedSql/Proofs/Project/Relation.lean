import TemplatedSql.Proofs.Import.Origin
import TemplatedSql.Proofs.Project.Library
import TemplatedSql.Project

/-! # The names that a project gives

The relation of a model, the name that a macro file is imported by and the name that its template is remembered under
all come from the path of the file. In a catalog of given files whose paths end with the name of a file, no two models
share a relation and no two macro files a template name. -/

namespace TemplatedSql

theorem Target.relation_injective (target : Target) : Function.Injective target.relation := by
  intro a b h
  rw [relation, relation] at h
  split at h
  · exact (String.append_right_inj _).mp h
  · exact (String.append_right_inj _).mp h

/-! ### The last name of a path -/

namespace Path
variable {p q : Path}

/-- A path ends with the name of a file, and its stem is a name. -/
structure NamesFile (p : Path) : Prop where
  file : p.fileName?.isSome = true
  current : p.stem ≠ "."
  parent : p.stem ≠ ".."

instance (p : Path) : Decidable p.NamesFile :=
  decidable_of_iff (p.fileName?.isSome = true ∧ p.stem ≠ "." ∧ p.stem ≠ "..")
    ⟨fun ⟨file, current, parent⟩ => ⟨file, current, parent⟩, fun h => ⟨h.file, h.current, h.parent⟩⟩

theorem NamesFile.getLast?_lookup (h : p.NamesFile) : p.lookup.getLast? = some p.stem := by
  have hstem : [p.stem].filter (fun s => s != "." && s != "..") = [p.stem] := by simp [h.current, h.parent]
  rw [lookup, if_pos h.file, hstem, List.getLast?_concat]

theorem NamesFile.stem_eq (hp : p.NamesFile) (hq : q.NamesFile) (h : p.lookupText = q.lookupText) : p.stem = q.stem := by
  have hlookup := intercalate_inj (fun _ => isName_of_mem_lookup) (fun _ => isName_of_mem_lookup) h
  have hlast := congrArg List.getLast? hlookup
  rw [hp.getLast?_lookup, hq.getLast?_lookup] at hlast
  exact Option.some.inj hlast

end Path

namespace SourceFile
variable {f : SourceFile}

/-- A model goes by its stem. -/
theorem name_mem_names (h : f.path.NamesFile) : f.name ∈ f.names := by
  have hlast := h.getLast?_lookup
  have hne : f.path.lookup ≠ [] := by
    intro hnil
    rw [hnil] at hlast
    cases hlast
  obtain ⟨before, hbefore⟩ := List.getLast?_eq_some_iff.mp hlast
  rw [names_eq hne]
  exact mem_endingTexts.mpr ⟨[f.name], List.cons_ne_nil _ _, ⟨before, hbefore.symm⟩, rfl⟩

end SourceFile

/-! ### Catalogs of given files -/

namespace Catalog
variable {files : List (Path × String)} {c : Catalog} {f g : SourceFile}

theorem namesFile_of_mem_classified (hfiles : ∀ file ∈ files, file.1.NamesFile) (h : f ∈ classified files) :
    f.path.NamesFile := by
  obtain ⟨file, hfile, rfl⟩ := List.mem_map.mp h
  exact hfiles file hfile

/-- Models of one name are one model. -/
theorem model_eq_of_name_eq (h : ofFiles files = .ok c) (hfiles : ∀ file ∈ files, file.1.NamesFile)
    (hf : f ∈ c.ofKind .model) (hg : g ∈ c.ofKind .model) (hname : f.name = g.name) : f = g := by
  have hindexes := indexes_ofFiles h
  have hfound : ∀ x ∈ c.ofKind .model, (c.index .model).get? x.name = some x := by
    intro x hx
    obtain ⟨hmem, hkind⟩ := mem_ofKind.mp hx
    have hx := (hindexes.mem_files.mp hmem).mem
    refine (hindexes.get?_iff .model x.name x).mpr ⟨hx, hkind, ?_⟩
    rw [SourceFile.keys_of_model hkind]
    exact SourceFile.name_mem_names (namesFile_of_mem_classified hfiles hx)
  have hboth := (hfound f hf).symm.trans (hname ▸ hfound g hg)
  exact Option.some.inj hboth

theorem nodup_relations (h : ofFiles files = .ok c) (hfiles : ∀ file ∈ files, file.1.NamesFile) (target : Target) :
    ((c.ofKind .model).map fun f => target.relation f.name).Nodup := by
  have hmodels : (c.ofKind .model).Nodup := by
    refine ((Built.ofFiles files h).inOrder.filter _).imp ?_
    rintro f _ hlt rfl
    have heq : f.path.order f.path = .eq := Std.ReflCmp.compare_self
    rw [heq] at hlt
    cases hlt
  refine hmodels.map_on fun f hf g hg heq => ?_
  exact model_eq_of_name_eq h hfiles hf hg (target.relation_injective heq)

/-- Names that macro templates are found under are the same where the names of the templates are. -/
theorem library_name_injective (h : ofFiles files = .ok c) (hfiles : ∀ file ∈ files, file.1.NamesFile)
    {name name' : String} {t t' : Template} (ht : c.library.get? name = some t) (ht' : c.library.get? name' = some t')
    (heq : t.name = t'.name) : name = name' := by
  have hfound : ∀ {name : String} {t : Template}, c.library.get? name = some t →
      ∃ f : SourceFile, f.path.NamesFile ∧ f.name = name ∧ t.name = f.path.lookupText := by
    intro name t ht
    rw [(Built.ofFiles files h).library_get?] at ht
    obtain ⟨f, hf, hparse⟩ := Option.bind_eq_some_iff.mp ht
    obtain ⟨hmem, -, hname⟩ := (indexes_ofFiles h).macro?_iff.mp hf
    exact ⟨f, namesFile_of_mem_classified hfiles hmem, hname,
      SourceFile.name_of_template (toOption_eq_some_iff.mp hparse)⟩
  obtain ⟨f, hf, rfl, hlookup⟩ := hfound ht
  obtain ⟨g, hg, rfl, hlookup'⟩ := hfound ht'
  exact hf.stem_eq hg (hlookup.symm.trans (heq.trans hlookup'))

end Catalog

/-! ### What templates see -/

namespace Project
variable {p : Project} {f g : SourceFile} {enter : Body → Address → Eval String} {x y : Context}

theorem lookup_of_unbound {env : Environment} {name : String} (h : x.arena.find? x.current name = none) :
    env.lookup x name = (env.overlay.get? name <|> env.globals.get? name) := by
  rw [Environment.lookup, h]
  rfl

/-- While a model is rendered, `this` is its relation wherever no scope binds the name. -/
theorem readVariable_this (hkind : f.kind = .model) (hx : x.arena.find? x.current "this" = none) (q : Position) :
    Eval.readVariable (p.environment f) enter "this" q x = .done (.string (p.config.target.relation f.name)) x := by
  have hoverlay : (p.environment f).overlay = [("this", .string (p.config.target.relation f.name))] := if_pos hkind
  unfold Eval.readVariable
  rw [lookup_of_unbound hx, hoverlay]
  rfl

/-- In every file `ref` is the function of the project wherever no scope binds the name. -/
theorem readVariable_ref (hx : x.arena.find? x.current "ref" = none) (q : Position) :
    Eval.readVariable (p.environment g) enter "ref" q x = .done (.function (.host 0 "ref")) x := by
  have hoverlay : (p.environment g).overlay.get? "ref" = none := by
    rw [environment]
    dsimp only
    split <;> rfl
  have hglobals : (p.environment g).globals.get? "ref" = some (.function (.host 0 "ref")) := rfl
  unfold Eval.readVariable
  rw [lookup_of_unbound hx, hoverlay, hglobals]
  rfl

/-- A call of `ref` gives the relation of the model that goes by the name. -/
theorem eval_ref {name : String} (hf : p.catalog.model? name = some f) {arguments : List CallArgument}
    {values : List Argument} (hvalues : CallArgument.evalAll (p.environment g) enter arguments x = .done values y)
    (hname : Argument.string values 0 "name" "ref" = .ok name) (hy : y.arena.find? y.current "ref" = none)
    (q r : Position) : ∃ z, Expr.eval (p.environment g) enter (.call q (.name r "ref") arguments) x =
      .done (.string (p.config.target.relation f.name)) z := by
  have hact : Eval.action (p.environment g) q values (.host 0 "ref") =
      .finish (.string (p.config.target.relation f.name)) := by
    show Action.ofExcept (p.refFunction values) = _
    simp only [refFunction, hname, bind, Except.bind, hf]
    rfl
  refine ⟨(p.environment g).discard { y.opening (some y.current) with current := y.current } y.arena.length, ?_⟩
  rw [Expr.eval]
  show Eval.bind _ _ x = _
  simp only [Eval.bind, hvalues]
  show Eval.bind _ _ y = _
  rw [Expr.eval]
  simp only [Eval.bind, readVariable_ref hy]
  rw [Eval.call]
  · rw [hact]
    rfl
  · simp

/-- The names that a project gives agree and do not collide, where its catalog is made of given files whose paths end
    with the name of a file:

    * different models have different relations;
    * in every file, `ref` with a name that a model goes by gives the text that is seen as `this` while that model is
      rendered, also from the macros that it imports, since these are rendered in the same environment;
    * under different names templates of different names are imported, so the root that a name is served from while a
      body is rendered is always the one in which the template of that very name was rendered. -/
theorem relations_do_not_collide {files : List (Path × String)} {c : Catalog} (h : Catalog.ofFiles files = .ok c)
    (hfiles : ∀ file ∈ files, file.1.NamesFile) (config : Config) (processVariables : Table String) :
    let p : Project := ⟨config, c, processVariables⟩
    let relation (f : SourceFile) : String := config.target.relation f.name
    ((∀ name f, c.model? name = some f → f ∈ c.ofKind .model) ∧ ((c.ofKind .model).map relation).Nodup) ∧
    (∀ name f, c.model? name = some f →
      (∀ enter q x, x.arena.find? x.current "this" = none →
        Eval.readVariable (p.environment f) enter "this" q x = .done (.string (relation f)) x) ∧
      ∀ g enter q r arguments x y values, CallArgument.evalAll (p.environment g) enter arguments x = .done values y →
        Argument.string values 0 "name" "ref" = .ok name → y.arena.find? y.current "ref" = none →
        ∃ z, Expr.eval (p.environment g) enter (.call q (.name r "ref") arguments) x = .done (.string (relation f)) z) ∧
    (∀ name name' t t', name ≠ name' → c.library.get? name = some t → c.library.get? name' = some t' →
      t.name ≠ t'.name) ∧
    ∀ f body moments, moments = (Session.watchRender (p.environment f) body).moments .initial →
      ∀ name x t root, .reads name x ∈ moments → c.library.get? name = some t → x.imported.get? t.name = some root →
        ∃ d, .opens name t d ∈ moments ∧ d.arena.length = root := by
  intro p relation
  refine ⟨⟨(Catalog.lists_ofFiles h).model_listed, Catalog.nodup_relations h hfiles config.target⟩,
    fun name f hf => ⟨fun enter q x hx => ?_, fun g enter q r arguments x y values hvalues hname hy => ?_⟩,
    fun name name' t t' hne ht ht' heq => hne (Catalog.library_name_injective h hfiles ht ht' heq),
    fun f body moments hmoments name x t root hread ht hroot => ?_⟩
  · exact readVariable_this (p := p) ((Catalog.indexes_ofFiles h).model?_iff.mp hf).2.1 hx q
  · exact eval_ref (p := p) hf hvalues hname hy q r
  · subst hmoments
    have hforgets : (p.environment f).Forgets := Environment.forgets_release rfl
    have hchronicled := Session.watchRender_chronicled hforgets body
    obtain ⟨e, he⟩ := hchronicled.keeps.ends (Nat.lt_succ_of_lt ((p.environment f).room_lt_allowance .initial))
    rcases (Session.watchRender_accounted hforgets body .initial e he).origin hread hroot with
      hnone | ⟨name', t', d, hopens, hsame, hlength⟩
    · cases hnone
    · obtain ⟨-, -, ht', -⟩ := ((hchronicled.chronicle (.of_ordered .initial) he).opened name' t' d).mp hopens
      obtain rfl := Catalog.library_name_injective h hfiles ht' ht hsame
      obtain rfl := Option.some.inj (ht'.symm.trans ht)
      exact ⟨d, hopens, hlength⟩

/-- A model beside a hidden file and a macro file with two points in its name. -/
theorem relations_do_not_collide_of_orders :
    let files : List (Path × String) :=
      [(⟨"models/orders.sql"⟩, "{{ this }}"), (⟨"models/.sql"⟩, ""), (⟨"macros/orders.v2.sql"⟩, "")]
    ∃ c, Catalog.ofFiles files = .ok c ∧ (∀ file ∈ files, file.1.NamesFile) ∧
      (c.ofKind .model).map (fun f => ({} : Target).relation f.name) = ["public..sql", "public.orders"] ∧
      c.model? "models/orders.sql" = some ⟨⟨"models/orders.sql"⟩, .model, "{{ this }}"⟩ ∧
      Eval.readVariable (Project.environment ⟨{}, c, []⟩ ⟨⟨"models/orders.sql"⟩, .model, "{{ this }}"⟩)
        (fun _ _ => Eval.pure "") "this" ⟨1, 4⟩ .initial = .done (.string "public.orders") .initial := by
  intro files
  have hfiles : ∀ file ∈ files, file.1.NamesFile := by decide
  obtain ⟨c, hc⟩ : ∃ c, Catalog.ofFiles files = .ok c := ⟨_, rfl⟩
  obtain ⟨-, hmodels, -⟩ := relations_do_not_collide hc hfiles {} []
  have hmodel : c.model? "models/orders.sql" = some ⟨⟨"models/orders.sql"⟩, .model, "{{ this }}"⟩ := by
    cases hc
    rfl
  have hrelations : (c.ofKind .model).map (fun f => ({} : Target).relation f.name) = ["public..sql", "public.orders"] := by
    cases hc
    rfl
  exact ⟨c, hc, hfiles, hrelations, hmodel, (hmodels _ _ hmodel).1 _ _ _ rfl⟩

end Project

end TemplatedSql
