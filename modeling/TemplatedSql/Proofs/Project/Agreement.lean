import TemplatedSql.Proofs.Project.Compile
import TemplatedSql.Proofs.Project.Library
import TemplatedSql.Proofs.Project.Recall

/-! # Rendering one model and rendering all

A model that is found by its name is rendered to the SQL that the project has for its path, where the catalog lists it
under that path. It does so unless the path was found again as that of a test. -/

namespace TemplatedSql

namespace CompiledProject

/-- The SQL of the file at a path. -/
def sql? (compiled : CompiledProject) (path : Path) : Option String :=
  (compiled.files.find? fun x => x.1.order path = .eq).map Prod.snd

theorem sql?_eq_some {compiled : CompiledProject} {path : Path} {sql : String} (h : InOrder Prod.fst compiled.files)
    (hmem : (path, sql) ∈ compiled.files) : compiled.sql? path = some sql := by
  have hself : path.order path = .eq := Std.ReflCmp.compare_self
  have hfound : (compiled.files.find? fun x => x.1.order path = .eq).isSome = true :=
    List.find?_isSome.mpr ⟨_, hmem, decide_eq_true hself⟩
  obtain ⟨x, hx⟩ := Option.isSome_iff_exists.mp hfound
  have hpath : x.1.order path = .eq := by simpa using List.find?_some hx
  have heq : x = (path, sql) := by
    by_contra hne
    exact h.distinct.forall (List.mem_of_find?_eq_some hx) hmem hne hpath
  rw [sql?, hx, heq]
  rfl

end CompiledProject

/-! ### Models that are listed -/

/-- The place of a kind in the order in which directories are searched. -/
def FileKind.rank : FileKind → Nat
  | macroFile => 0
  | model => 1
  | test => 2
  | other => 3

namespace Catalog
variable {c : Catalog} {f g : SourceFile} {name : String} {paths : SourcePaths} {root : Path} {here : WorkingDirectory}

theorem kind_of_mem_filesIn {kind : FileKind} {directory : String} (h : f ∈ filesIn paths root here kind directory) :
    f.kind = kind := by
  simp only [filesIn] at h
  split at h
  · cases h
  · obtain ⟨found, -, hf⟩ := List.mem_flatMap.mp h
    rw [Option.mem_toList, sourceOf] at hf
    split at hf
    · cases hf
    · obtain ⟨source, -, rfl⟩ := Option.map_eq_some_iff.mp hf
      rfl

theorem kind_ne_other (h : f ∈ foundFiles paths root here) : f.kind ≠ .other := by
  obtain ⟨directory, hdirectory, hf⟩ := List.mem_flatMap.mp h
  rw [kind_of_mem_filesIn hf]
  rintro hother
  simp only [List.mem_append, List.mem_map] at hdirectory
  rcases hdirectory with (⟨_, -, rfl⟩ | ⟨_, -, rfl⟩) | ⟨_, -, rfl⟩ <;> cases hother

/-- Macro files are found before models, and models before tests. -/
theorem pairwise_rank_foundFiles (paths : SourcePaths) (root : Path) (here : WorkingDirectory) :
    (foundFiles paths root here).Pairwise fun f g => f.kind.rank ≤ g.kind.rank := by
  refine List.pairwise_flatMap.mpr ⟨fun directory _ => ?_, ?_⟩
  · refine List.pairwise_of_forall_mem_list fun f hf g hg => ?_
    exact (congrArg FileKind.rank ((kind_of_mem_filesIn hf).trans (kind_of_mem_filesIn hg).symm)).le
  · have hkinds : (paths.macros.map (FileKind.macroFile, ·) ++ paths.models.map (FileKind.model, ·) ++
        paths.tests.map (FileKind.test, ·)).Pairwise fun a b => a.1.rank ≤ b.1.rank := by
      have hall {α : Type} (l : List α) : l.Pairwise fun _ _ => True := List.pairwise_of_forall fun _ _ => trivial
      simp [List.pairwise_append, List.pairwise_map, FileKind.rank, or_imp, forall_and, hall]
    refine hkinds.imp fun hle f hf g hg => ?_
    rw [kind_of_mem_filesIn hf, kind_of_mem_filesIn hg]
    exact hle

/-- A model that is found by name in the directories of a project is listed, unless a test was found under its path. -/
theorem listed_iff_no_test (h : discover paths root here = .ok c) (hf : c.model? name = some f) :
    f ∈ c.ofKind .model ↔ ∀ g ∈ foundFiles paths root here, f.path.order g.path = .eq → g.kind ≠ .test := by
  have hindexes := indexes_discover h
  obtain ⟨hmem, hkind, -⟩ := hindexes.model?_iff.mp hf
  have hranks := pairwise_rank_foundFiles paths root here
  constructor
  · intro hlisted g hg hpath htest
    obtain ⟨before, after, hsplit, hafter⟩ := hindexes.mem_files.mp (mem_ofKind.mp hlisted).1
    rw [hsplit] at hg hranks
    obtain ⟨-, -, hapart⟩ := List.pairwise_append.mp hranks
    rcases List.mem_append.mp hg with hbefore | hrest
    · have hle := hapart g hbefore f List.mem_cons_self
      rw [hkind, htest] at hle
      exact absurd hle (by decide)
    · rcases List.mem_cons.mp hrest with rfl | hrest
      · rw [hkind] at htest
        cases htest
      · exact hafter g hrest hpath
  · intro hnone
    refine mem_ofKind.mpr ⟨hindexes.mem_files.mpr ?_, hkind⟩
    obtain ⟨before, after, hsplit⟩ := List.append_of_mem hmem
    refine ⟨before, after, hsplit, fun g hg hpath => ?_⟩
    have hfound : g ∈ foundFiles paths root here := by simp [hsplit, hg]
    have hlater := hranks
    have hclash := hindexes.apart
    rw [hsplit] at hlater hclash
    have hle := (List.pairwise_cons.mp (List.pairwise_append.mp hlater).2.1).1 g hg
    have hapart := (List.pairwise_cons.mp (List.pairwise_append.mp hclash).2.1).1 g hg
    cases hg' : g.kind with
    | macroFile =>
      rw [hkind, hg'] at hle
      exact absurd hle (by decide)
    | model => exact hapart (clashes_of_order_eq hpath (hkind.trans hg'.symm) (.inr hkind))
    | test => exact hnone g hfound hpath hg'
    | other => exact kind_ne_other hfound hg'

end Catalog

/-! ### One model and all -/

namespace Project
variable {p : Project} {f : SourceFile} {name : String} {parsing rendering schedule : Nat → Nat}
  {compiled : CompiledProject}

/-- Where the macro files can be parsed, rendering a model is rendering its file. -/
theorem result_compileModel (hf : p.catalog.model? name = some f)
    (hparse : ∀ g ∈ p.catalog.ofKind .macroFile, ∃ t, g.template = .ok t) :
    (p.compileModel schedule name).result = (p.compileFile f).result.mapError .compile := by
  obtain ⟨n, hn⟩ : ∃ n, p.parseFiles schedule (p.catalog.ofKind .macroFile) = .ok n :=
    exists_parseFiles_eq_ok_iff.mpr hparse
  rw [compileModel, hf]
  dsimp only
  rw [hn]

/-- Where the whole project compiles, a model that is listed has its SQL there, and rendering it alone gives the same. -/
theorem compileModel_of_compileWith_eq_ok (hp : p.catalog.Built) (hf : p.catalog.model? name = some f)
    (hlisted : f ∈ p.catalog.ofKind .model) (h : (p.compileWith p.compileFile parsing rendering).result = .ok compiled) :
    ∃ sql, compiled.sql? f.path = some sql ∧ (p.compileModel schedule name).result = .ok sql := by
  obtain ⟨hrenders, horder, hfiles, -⟩ := compileWith_eq_ok hp h
  have htarget : f ∈ p.targets := List.mem_append_left _ hlisted
  obtain ⟨sql, hsql⟩ := hrenders f htarget
  have hmem : (f.path, Except.ok sql) ∈ compiled.files.map fun x => (x.1, (Except.ok x.2 : Except CompileError String)) :=
    hfiles.mem_iff.mpr (List.mem_map.mpr ⟨f, htarget, by rw [hsql]⟩)
  obtain ⟨⟨path, text⟩, hx, heq⟩ := List.mem_map.mp hmem
  cases heq
  -- All files can be parsed, so the macro files can.
  have hparse : ∀ g ∈ p.catalog.ofKind .macroFile, ∃ t, g.template = .ok t := fun g hg =>
    parses_of_compileWith h g (Catalog.mem_ofKind.mp hg).1
  refine ⟨text, CompiledProject.sql?_eq_some horder hx, ?_⟩
  rw [result_compileModel hf hparse, hsql]
  rfl

/-- Rendering a model alone and rendering the project agree, whichever files were parsed before:

    * in a catalog of given files every model that is found by a name is listed under its path; in one of the
      directories of a project it is, unless a test was found under its path;
    * if such a model is listed and the project compiles, the model alone renders to the SQL that the project has at the
      path of the model; if the model alone fails, so does the project. -/
theorem compileModel_agrees (p : Project) (hp : p.catalog.Built) {name : String} {f : SourceFile}
    (hf : p.catalog.model? name = some f) :
    (∀ files, Catalog.ofFiles files = .ok p.catalog → f ∈ p.catalog.ofKind .model) ∧
    (∀ paths root here, Catalog.discover paths root here = .ok p.catalog → (f ∈ p.catalog.ofKind .model ↔
      ∀ g ∈ Catalog.foundFiles paths root here, f.path.order g.path = .eq → g.kind ≠ .test)) ∧
    (f ∈ p.catalog.ofKind .model → ∀ parse render parse' render', Recalls parse → Recalls render → Recalls parse' →
      (∀ g, Recalls (render' g)) → ∀ schedule parsing rendering,
        let alone := (p.compileModelBy parse render schedule name).result
        let all := (p.compileAllBy parse' render' parsing rendering).result
        (∀ compiled, all = .ok compiled → ∃ sql, compiled.sql? f.path = some sql ∧ alone = .ok sql) ∧
        ∀ e, alone = .error e → ∃ e', all = .error e') := by
  refine ⟨fun files h => (Catalog.lists_ofFiles h).model_listed name f hf,
    fun paths root here h => Catalog.listed_iff_no_test h hf,
    fun hlisted parse render parse' render' hparse hrender hparse' hrender' schedule parsing rendering => ?_⟩
  rw [compileModelBy_eq hparse hrender, compileAllBy_eq hparse' hrender']
  have hok : ∀ compiled, (p.compileWith p.compileFile parsing rendering).result = .ok compiled →
      ∃ sql, compiled.sql? f.path = some sql ∧ (p.compileModel schedule name).result = .ok sql :=
    fun compiled h => compileModel_of_compileWith_eq_ok hp hf hlisted h
  refine ⟨hok, fun e he => ?_⟩
  cases hall : (p.compileWith p.compileFile parsing rendering).result with
  | error e' => exact ⟨e', rfl⟩
  | ok compiled =>
    obtain ⟨sql, -, hsql⟩ := hok compiled hall
    rw [he] at hsql
    cases hsql

/-- A project of one file, whatever the file is found as by name, has the SQL that the listed file renders to. -/
theorem sql?_compileWith_singleton {g : SourceFile} {sql : String} (hp : p.catalog.Built)
    (hfiles : p.catalog.files = [g]) (hkind : g.kind = .model ∨ g.kind = .test)
    (hsql : (p.compileFile g).result = .ok sql) :
    ∃ compiled, (p.compileWith p.compileFile parsing rendering).result = .ok compiled ∧ compiled.sql? g.path = some sql := by
  have htargets : p.targets = [g] := by
    rw [targets, Catalog.ofKind, Catalog.ofKind, hfiles]
    rcases hkind with hkind | hkind <;> simp [hkind]
  have hparse : ∀ f ∈ p.catalog.files, ∃ t, f.template = .ok t := by
    rw [hfiles]
    refine List.forall_mem_singleton.mpr ?_
    cases ht : g.template with
    | ok t => exact ⟨t, rfl⟩
    | error e =>
      rw [compileFile, ht] at hsql
      cases hsql
  have hrenders : ∀ f ∈ p.targets, ∃ sql, (p.compileFile f).result = .ok sql := by
    rw [htargets]
    exact List.forall_mem_singleton.mpr ⟨sql, hsql⟩
  obtain ⟨compiled, hcompiled⟩ : ∃ compiled, (p.compileWith p.compileFile parsing rendering).result = .ok compiled :=
    exists_compileWith_eq_ok hparse hrenders
  obtain ⟨-, horder, hperm, -⟩ := compileWith_eq_ok hp hcompiled
  rw [htargets, List.map_singleton, hsql, List.perm_singleton, List.map_eq_singleton_iff] at hperm
  obtain ⟨⟨path, text⟩, hmem, heq⟩ := hperm
  cases heq
  exact ⟨compiled, hcompiled, CompiledProject.sql?_eq_some horder (hmem ▸ List.mem_cons_self)⟩

/-- A model on its own, where every file has been parsed before. -/
theorem compileModel_agrees_of_model :
    let again (g : SourceFile) : Except CompileError Template := ((Kept.empty.parse g).2.parse g).1
    ∃ c f, Catalog.ofFiles [(⟨"models/a.sql"⟩, "{{ this }}")] = .ok c ∧ c.model? "a" = some f ∧
      ∀ schedule parsing rendering, ∃ compiled,
        (compileAllBy ⟨{}, c, []⟩ again (fun _ => again) parsing rendering).result = .ok compiled ∧
          ∃ sql, compiled.sql? f.path = some sql ∧
            (compileModelBy ⟨{}, c, []⟩ again again schedule "a").result = .ok sql := by
  intro again
  have hsource : Body.ofSource "{{ this }}" = .ok ⟨⟨1, 1⟩, [.output ⟨1, 1⟩ (.name ⟨1, 4⟩ "this")]⟩ := by cbv
  have hagain : Recalls again := fun g => ⟨_, .parse g .empty, rfl⟩
  obtain ⟨c, hc⟩ : ∃ c, Catalog.ofFiles [(⟨"models/a.sql"⟩, "{{ this }}")] = .ok c := ⟨_, rfl⟩
  have hfiles : c.files = [⟨⟨"models/a.sql"⟩, .model, "{{ this }}"⟩] := by
    cases hc
    rfl
  have hmodel : c.model? "a" = some ⟨⟨"models/a.sql"⟩, .model, "{{ this }}"⟩ := by
    cases hc
    rfl
  have hrenders : (compileFile ⟨{}, c, []⟩ ⟨⟨"models/a.sql"⟩, .model, "{{ this }}"⟩).result = .ok "public.a" := by
    cases hc
    simp only [compileFile, SourceFile.template, hsource]
    rfl
  refine ⟨c, _, hc, hmodel, fun schedule parsing rendering => ?_⟩
  obtain ⟨hlisted, -, hagree⟩ := compileModel_agrees ⟨{}, c, []⟩ (.ofFiles _ hc) hmodel
  obtain ⟨hok, -⟩ := hagree (hlisted _ hc) again again again (fun _ => again) hagain hagain hagain (fun _ => hagain)
    schedule parsing rendering
  obtain ⟨compiled, hcompiled, -⟩ := sql?_compileWith_singleton (p := ⟨{}, c, []⟩) (.ofFiles _ hc) hfiles (.inl rfl) hrenders
  rw [← compileAllBy_eq hagain fun _ => hagain] at hcompiled
  exact ⟨compiled, hcompiled, hok compiled hcompiled⟩

/-- A file that is found as a model and then as a test: alone it is rendered as the model, in the project as the test. -/
theorem compileModel_differs :
    let config : Config := { paths := { tests := ["models/tests"] } }
    ∃ c f, Catalog.discover config.paths ⟨"/p"⟩ (Catalog.testsInModels "select * from {{ this }}") = .ok c ∧
      c.model? "t" = some f ∧ ∀ schedule,
        (∃ compiled, (compileAll ⟨config, c, []⟩ schedule).result = .ok compiled ∧
          compiled.sql? f.path = some "select * from ") ∧
        (compileModel ⟨config, c, []⟩ schedule "t").result = .ok "select * from public.t" := by
  intro config
  have hsource : Body.ofSource "select * from {{ this }}" =
      .ok ⟨⟨1, 1⟩, [.text ⟨1, 1⟩ "select * from ", .output ⟨1, 15⟩ (.name ⟨1, 18⟩ "this")]⟩ := by cbv
  have hdiscover := Catalog.discover_testsInModels "select * from {{ this }}"
  refine ⟨_, _, hdiscover, rfl, fun schedule => ⟨?_, ?_⟩⟩
  · refine sql?_compileWith_singleton (g := ⟨⟨"models/tests/t.sql"⟩, .test, _⟩) (.discover _ _ _ hdiscover) rfl (.inr rfl) ?_
    simp only [compileFile, SourceFile.template, hsource]
    rfl
  · rw [result_compileModel rfl (List.forall_mem_nil _)]
    simp only [compileFile, SourceFile.template, hsource]
    rfl

end Project

end TemplatedSql
