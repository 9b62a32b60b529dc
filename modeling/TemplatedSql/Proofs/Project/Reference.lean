import TemplatedSql.Proofs.Project.Agreement

/-! # The names that reach a model

A model goes by the texts of the endings of its lookup path, which is its path without one extension. A name is looked up
without all the extensions `.sql` at its end. So a model is reached by each of its texts, with an extension or without one,
where its lookup path does not end with `.sql` itself, and otherwise by no name. -/

namespace TemplatedSql

namespace Catalog
variable {c : Catalog} {files : List (Path × String)} {f : SourceFile} {name : String}

/-- A model whose lookup path ends with an extension is found by no name. -/
theorem model?_ne_of_keepsExtension (h : ofFiles files = .ok c) (hkeeps : f.KeepsExtension) : c.model? name ≠ some f :=
  (indexes_ofFiles h).model?_ne_of_keepsExtension hkeeps

/-- Any other model is found by each of its texts with any number of extensions. -/
theorem model?_of_not_keepsExtension (h : ofFiles files = .ok c) (hf : f ∈ c.ofKind .model) (hkeeps : ¬f.KeepsExtension)
    {parts : List String} (hne : parts ≠ []) (hsuffix : parts <:+ f.path.lookup) (n : Nat)
    (hname : name.toList = ("/".intercalate parts).toList ++ (List.replicate n ".sql".toList).flatten) :
    c.model? name = some f := by
  obtain ⟨hmem, hkind⟩ := mem_ofKind.mp hf
  have hfound : f ∈ classified files := ((indexes_ofFiles h).mem_files.mp hmem).mem
  refine (indexes_ofFiles h).model?_iff.mpr ⟨hfound, hkind, ?_⟩
  have hbase : WithoutExtensions name ("/".intercalate parts) :=
    ⟨⟨n, hname⟩, mt (extension_suffix_intercalate_iff hne hsuffix).mp hkeeps⟩
  rw [trimExtension_eq_iff.mpr hbase]
  rw [SourceFile.names_eq (hasNames_of_mem_classified hfound hkind), mem_endingTexts]
  exact ⟨parts, hne, hsuffix, rfl⟩

end Catalog

namespace Project
variable {p : Project} {f : SourceFile} {name : String}

/-- A name reaches a model: it finds it, it is not reported as unknown, the model rendered under it is that file where the
macro files can be parsed, and `ref` gives the relation of that file. -/
structure Reaches (p : Project) (name : String) (f : SourceFile) : Prop where
  found : p.catalog.model? name = some f
  known : ∀ schedule other, (p.compileModel schedule name).result ≠ .error (.modelNotFound other)
  rendered : (∀ g ∈ p.catalog.ofKind .macroFile, ∃ t, g.template = .ok t) →
    ∀ schedule, (p.compileModel schedule name).result = (p.compileFile f).result.mapError .compile
  related : ∀ arguments, Argument.string arguments 0 "name" "ref" = .ok name →
    p.refFunction arguments = .ok (.string (p.config.target.relation f.name))

theorem reaches_of_model? (hf : p.catalog.model? name = some f) : p.Reaches name f where
  found := hf
  known schedule other := by
    rw [compileModel, hf]
    dsimp only
    split
    · simp
    · cases (p.compileFile f).result <;> simp [Except.mapError]
  rendered hparse _ := result_compileModel hf hparse
  related arguments h := by
    rw [refFunction, h]
    simp only [bind, Except.bind, hf]

/-- A model of given files is reached by each trailing part of its lookup path, with the extension `.sql` and without it,
unless its lookup path ends with `.sql` itself: then it is listed and no name reaches it. -/
theorem model_reached_unless_keepsExtension {files : List (Path × String)} {c : Catalog}
    (h : Catalog.ofFiles files = .ok c) (hf : f ∈ c.ofKind .model) (config : Config) (processVariables : Table String) :
    let p : Project := ⟨config, c, processVariables⟩
    (¬f.KeepsExtension → ∀ parts, parts ≠ [] → parts <:+ f.path.lookup →
      p.Reaches ("/".intercalate parts) f ∧ p.Reaches ("/".intercalate parts ++ ".sql") f) ∧
    (f.KeepsExtension → ∀ name, c.model? name ≠ some f) := by
  refine ⟨fun hkeeps parts hne hsuffix => ⟨reaches_of_model? ?_, reaches_of_model? ?_⟩, fun hkeeps name =>
    Catalog.model?_ne_of_keepsExtension h hkeeps⟩
  · exact Catalog.model?_of_not_keepsExtension h hf hkeeps hne hsuffix 0 (by simp)
  · exact Catalog.model?_of_not_keepsExtension h hf hkeeps hne hsuffix 1 (by simp)

/-- A model with two extensions beside one with an extension. -/
theorem model_reached_unless_keepsExtension_of_both :
    let files : List (Path × String) := [(⟨"models/staging/orders.sql"⟩, "select 1"), (⟨"models/old.sql.sql"⟩, "")]
    ∃ c, Catalog.ofFiles files = .ok c ∧
      Reaches ⟨{}, c, []⟩ "staging/orders" ⟨⟨"models/staging/orders.sql"⟩, .model, "select 1"⟩ ∧
      Reaches ⟨{}, c, []⟩ "orders.sql" ⟨⟨"models/staging/orders.sql"⟩, .model, "select 1"⟩ ∧
      ∀ name, c.model? name ≠ some ⟨⟨"models/old.sql.sql"⟩, .model, ""⟩ := by
  intro files
  obtain ⟨c, hc⟩ : ∃ c, Catalog.ofFiles files = .ok c := ⟨_, rfl⟩
  have hlisted : c.ofKind .model =
      [⟨⟨"models/old.sql.sql"⟩, .model, ""⟩, ⟨⟨"models/staging/orders.sql"⟩, .model, "select 1"⟩] := by
    cases hc
    rfl
  have horders := model_reached_unless_keepsExtension (f := ⟨⟨"models/staging/orders.sql"⟩, .model, "select 1"⟩) hc
    (by simp [hlisted]) {} []
  have hold := model_reached_unless_keepsExtension (f := ⟨⟨"models/old.sql.sql"⟩, .model, ""⟩) hc (by simp [hlisted]) {} []
  have hkeeps : ¬SourceFile.KeepsExtension ⟨⟨"models/staging/orders.sql"⟩, .model, "select 1"⟩ := by
    rw [SourceFile.KeepsExtension]
    decide
  have hkeeps' : SourceFile.KeepsExtension ⟨⟨"models/old.sql.sql"⟩, .model, ""⟩ := by
    rw [SourceFile.KeepsExtension]
    decide
  exact ⟨c, hc, (horders.1 hkeeps ["staging", "orders"] (List.cons_ne_nil _ _) ⟨["models"], by decide⟩).1,
    (horders.1 hkeeps ["orders"] (List.cons_ne_nil _ _) ⟨["models", "staging"], by decide⟩).2, hold.2 hkeeps'⟩

/-- A model of a valid list of files that is not found by the last part of its lookup path, with or without an extension,
so it can be neither rendered nor referenced. -/
theorem model_keeping_extension_unreached : ∃ (files : List (Path × String)) (c : Catalog) (f : SourceFile),
    Catalog.ofFiles files = .ok c ∧ f ∈ c.ofKind .model ∧ ["a.sql"] <:+ f.path.lookup ∧
      c.model? "a.sql" = none ∧ c.model? ("a.sql" ++ ".sql") = none :=
  ⟨[(⟨"models/a.sql.sql"⟩, "select 1")], _, ⟨⟨"models/a.sql.sql"⟩, .model, "select 1"⟩, rfl, List.mem_cons_self,
    ⟨["models"], by decide⟩, rfl, rfl⟩

end Project

end TemplatedSql
