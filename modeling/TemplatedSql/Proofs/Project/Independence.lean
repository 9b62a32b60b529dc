import TemplatedSql.Project.Compile
import TemplatedSql.Proofs.Allowance
import TemplatedSql.Proofs.Project.Library

/-! # What the SQL of a file depends on

A template comes to other files of a project only through `ref`, which tells whether there is a model and what it is
called, and through the library, which gives the templates of the macro files. So the SQL of a file, or its error, is
the same in every project with the same macro files and the same paths of models. -/

namespace TemplatedSql

namespace Catalog

/-- The macro files among given files are among others as well, and so are the paths of the models. -/
structure Covered (files files' : List (Path × String)) : Prop where
  macros : ∀ file ∈ files, classify file.1 = .macroFile → ∃ file' ∈ files', file.1.order file'.1 = .eq ∧ file.2 = file'.2
  models : ∀ file ∈ files, classify file.1 = .model → ∃ file' ∈ files', file.1.order file'.1 = .eq

instance (files files' : List (Path × String)) : Decidable (Covered files files') :=
  decidable_of_iff
    ((∀ file ∈ files, classify file.1 = .macroFile → ∃ file' ∈ files', file.1.order file'.1 = .eq ∧ file.2 = file'.2) ∧
      ∀ file ∈ files, classify file.1 = .model → ∃ file' ∈ files', file.1.order file'.1 = .eq)
    ⟨fun ⟨macros, models⟩ => ⟨macros, models⟩, fun h => ⟨h.macros, h.models⟩⟩

variable {files files' : List (Path × String)} {c c' : Catalog} {f : SourceFile} {name : String}

theorem Covered.exists_macro (hcovered : Covered files files') (h : ofFiles files = .ok c) (h' : ofFiles files' = .ok c')
    (hf : c.macro? name = some f) : ∃ g, c'.macro? name = some g ∧ f.template.toOption = g.template.toOption := by
  obtain ⟨hmem, hkind, rfl⟩ := (indexes_ofFiles h).macro?_iff.mp hf
  obtain ⟨file, hfile, rfl⟩ := List.mem_map.mp hmem
  obtain ⟨file', hfile', hpath, hsource⟩ := hcovered.macros file hfile hkind
  have hcomponents := Path.order_eq_iff.mp hpath
  have hmem' : ⟨file'.1, classify file'.1, file'.2⟩ ∈ classified files' := List.mem_map_of_mem hfile'
  refine ⟨_, (indexes_ofFiles h').macro?_iff.mpr ⟨hmem', ?_, ?_⟩, SourceFile.toOption_template_congr hpath hsource⟩
  · rw [← hkind]
    exact (classify_congr hcomponents).symm
  · exact (Path.stem_congr hcomponents).symm

theorem Covered.exists_model (hcovered : Covered files files') (h : ofFiles files = .ok c) (h' : ofFiles files' = .ok c')
    (hf : c.model? name = some f) : ∃ g, c'.model? name = some g ∧ f.name = g.name := by
  obtain ⟨hmem, hkind, hname⟩ := (indexes_ofFiles h).model?_iff.mp hf
  obtain ⟨file, hfile, rfl⟩ := List.mem_map.mp hmem
  obtain ⟨file', hfile', hpath⟩ := hcovered.models file hfile hkind
  have hcomponents := Path.order_eq_iff.mp hpath
  have hmem' : ⟨file'.1, classify file'.1, file'.2⟩ ∈ classified files' := List.mem_map_of_mem hfile'
  refine ⟨_, (indexes_ofFiles h').model?_iff.mpr ⟨hmem', ?_, ?_⟩, Path.stem_congr hcomponents⟩
  · rw [← hkind]
    exact (classify_congr hcomponents).symm
  · rw [SourceFile.names, Path.lookup_congr hcomponents] at hname
    exact hname

/-- What is found in one of two places and looks the same in the other one looks the same in both. -/
theorem map_eq_map {α β : Type} {look : α → β} {o o' : Option α}
    (h : ∀ a, o = some a → ∃ b, o' = some b ∧ look a = look b)
    (h' : ∀ b, o' = some b → ∃ a, o = some a ∧ look b = look a) : o'.map look = o.map look := by
  cases o with
  | some a =>
    obtain ⟨b, rfl, heq⟩ := h a rfl
    exact congrArg some heq.symm
  | none =>
    cases o' with
    | none => rfl
    | some b =>
      obtain ⟨a, ha, -⟩ := h' b rfl
      cases ha

section
variable (h : ofFiles files = .ok c) (h' : ofFiles files' = .ok c') (hcovered : Covered files files')
  (hcovered' : Covered files' files)
include h h' hcovered hcovered'

/-- The library is the same. -/
theorem library_get?_eq (name : String) : c'.library.get? name = c.library.get? name := by
  have hmap : (c'.macro? name).map (fun f => f.template.toOption) = (c.macro? name).map fun f => f.template.toOption :=
    map_eq_map (fun _ => hcovered.exists_macro h h') fun _ => hcovered'.exists_macro h' h
  have hbind := congrArg (fun o => o.bind id) hmap
  rw [(Built.ofFiles files h).library_get?, (Built.ofFiles files' h').library_get?]
  simpa only [Option.bind_map, Function.id_comp] using hbind

/-- The models that are found have the same names. -/
theorem map_name_model? (name : String) : (c'.model? name).map SourceFile.name = (c.model? name).map SourceFile.name :=
  map_eq_map (fun _ => hcovered.exists_model h h') fun _ => hcovered'.exists_model h' h

end

end Catalog

namespace Project
variable {p p' : Project} {config : Config} {c c' : Catalog} {processVariables : Table String}

theorem refFunction_congr (hconfig : p'.config = p.config)
    (hmodels : ∀ name, (p'.catalog.model? name).map SourceFile.name = (p.catalog.model? name).map SourceFile.name) :
    p'.refFunction = p.refFunction := by
  funext arguments
  rw [refFunction, refFunction, hconfig]
  congr 1
  funext name
  have hname := hmodels name
  cases hf : p.catalog.model? name with
  | none =>
    rw [hf, Option.map_none, Option.map_eq_none_iff] at hname
    rw [hname]
  | some f =>
    rw [hf, Option.map_some, Option.map_eq_some_iff] at hname
    obtain ⟨g, hg, heq⟩ := hname
    rw [hg]
    dsimp only
    rw [heq]

/-- The environments of two projects agree where the same macro templates and the same names of models are found. -/
theorem environment_agrees (hlibrary : ∀ name, c'.library.get? name = c.library.get? name)
    (hmodels : ∀ name, (c'.model? name).map SourceFile.name = (c.model? name).map SourceFile.name) (f : SourceFile) :
    (environment ⟨config, c, processVariables⟩ f).Agrees (environment ⟨config, c', processVariables⟩ f) := by
  have href : refFunction ⟨config, c', processVariables⟩ = refFunction ⟨config, c, processVariables⟩ :=
    refFunction_congr rfl hmodels
  have hfunctions : functions ⟨config, c', processVariables⟩ = functions ⟨config, c, processVariables⟩ := by
    rw [functions, functions, href]
    rfl
  have hglobals : globals ⟨config, c', processVariables⟩ = globals ⟨config, c, processVariables⟩ := by
    rw [globals, globals, hfunctions]
  exact
    { globals := hglobals
      overlay := rfl
      library := hlibrary
      hosts := by
        rw [environment, environment, hfunctions]
      discard := rfl }

/-- What a template of a project can come to of other files are the templates of the macro files and the names of the
    models. So a file gives the same SQL or the same error, and the same logs, in two projects of given files that have
    the same macro files and the same paths of models, whatever is in the other models, in tests and in other files. -/
theorem compileFile_independent {files files' : List (Path × String)} (h : Catalog.ofFiles files = .ok c)
    (h' : Catalog.ofFiles files' = .ok c') (hcovered : Catalog.Covered files files')
    (hcovered' : Catalog.Covered files' files) (config : Config) (processVariables : Table String) (f : SourceFile) :
    compileFile ⟨config, c', processVariables⟩ f = compileFile ⟨config, c, processVariables⟩ f := by
  have hagrees : (environment ⟨config, c, processVariables⟩ f).Agrees (environment ⟨config, c', processVariables⟩ f) :=
    environment_agrees (Catalog.library_get?_eq h h' hcovered hcovered') (Catalog.map_name_model? h h' hcovered hcovered') f
  have henter := hagrees.enter_eq (Environment.forgets_release rfl)
  simp only [compileFile, Session.render, Session.renderAgain, henter]

/-- A model that names another one, whose source cannot even be parsed in the second project. -/
theorem compileFile_independent_of_broken :
    let a : Path × String := (⟨"models/a.sql"⟩, "\x7b\x7b ref('b') \x7d\x7d")
    let m : Path × String := (⟨"macros/m.sql"⟩, "")
    let files := [a, m, (⟨"models/b.sql"⟩, "select 1")]
    let files' := [(⟨"tests/t.sql"⟩, "select 2"), (⟨"models//b.sql"⟩, "\x7b\x7b"), m, a]
    ∃ c c', Catalog.ofFiles files = .ok c ∧ Catalog.ofFiles files' = .ok c' ∧ Catalog.Covered files files' ∧
      Catalog.Covered files' files ∧ (c'.model? "b").map SourceFile.source = some "\x7b\x7b" ∧
      ∀ config processVariables, compileFile ⟨config, c', processVariables⟩ ⟨a.1, .model, a.2⟩ =
        compileFile ⟨config, c, processVariables⟩ ⟨a.1, .model, a.2⟩ := by
  intro a m files files'
  have hcovered : Catalog.Covered files files' := by decide
  have hcovered' : Catalog.Covered files' files := by decide
  obtain ⟨c, hc⟩ : ∃ c, Catalog.ofFiles files = .ok c := ⟨_, rfl⟩
  obtain ⟨c', hc'⟩ : ∃ c', Catalog.ofFiles files' = .ok c' := ⟨_, rfl⟩
  have hbroken : (c'.model? "b").map SourceFile.source = some "\x7b\x7b" := by
    cases hc'
    rfl
  exact ⟨c, c', hc, hc', hcovered, hcovered', hbroken, fun config processVariables =>
    compileFile_independent hc hc' hcovered hcovered' config processVariables _⟩

end Project

end TemplatedSql
