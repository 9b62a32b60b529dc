import Mathlib
import TemplatedSql.Proofs.Project.Catalog
import TemplatedSql.Proofs.WorkPool.Serial

/-!
# Compiling all files

Whatever the number of threads is and in whichever order the workers go on, compiling a project gives the SQL
of every model and every test, or else an error of one of the files.
-/

namespace TemplatedSql

theorem WorkPool.failure_eq_none_iff {α ε : Type} {r : Except ε α} : failure r = none ↔ ∃ a, r = .ok a := by
  cases r <;> simp [failure]

theorem WorkPool.failure_eq_some_iff {α ε : Type} {r : Except ε α} {e : ε} :
    failure r = some e ↔ r = .error e := by
  cases r <;> simp [failure]

theorem WorkPool.Outcome.result_eq_error_iff {α ρ ε : Type} {o : Outcome α ρ ε} {e : ε} :
    o.result = .error e ↔ o.error = some e := by
  cases h : o.error <;> simp [result, h]

/-! ## Distinct paths -/

section
variable {α : Type} {key : α → Path} {as bs : List α}

/-- No two items have the same path. -/
def Distinct (key : α → Path) (as : List α) : Prop :=
  as.Pairwise fun a b => (key a).order (key b) ≠ .eq

instance symm_distinct : Std.Symm fun a b => (key a).order (key b) ≠ .eq where
  symm _ _ h heq := h (Std.OrientedCmp.eq_comm.mp heq)

theorem InOrder.distinct (h : InOrder key as) : Distinct key as :=
  h.imp fun hlt heq => by
    rw [hlt] at heq
    cases heq

theorem Distinct.perm (h : Distinct key as) (hp : as.Perm bs) : Distinct key bs :=
  hp.pairwise h fun h => symm_distinct.symm _ _ h

/-- Inserting items with distinct paths one after the other puts them in order. -/
theorem foldl_insertAt {replace : α → α → α}
    (hreplace : ∀ a b, key (replace a b) = key a ∨ key (replace a b) = key b) (hbs : InOrder key bs)
    (h : Distinct key (as ++ bs)) :
    InOrder key (as.foldl (fun bs a => insertAt key replace a bs) bs) ∧
      (as.foldl (fun bs a => insertAt key replace a bs) bs).Perm (as ++ bs) := by
  induction as generalizing bs with
  | nil => exact ⟨hbs, .refl _⟩
  | cons a as ih =>
    obtain ⟨ha, has⟩ := List.pairwise_cons.mp h
    have hperm : (insertAt key replace a bs).Perm (a :: bs) :=
      perm_insertAt fun b hb => ha b (List.mem_append_right as hb)
    have hnext : (a :: as ++ bs).Perm (as ++ insertAt key replace a bs) :=
      List.perm_middle.symm.trans (hperm.symm.append_left as)
    obtain ⟨horder, hfold⟩ := ih (hbs.insertAt hreplace) (h.perm hnext)
    exact ⟨horder, hfold.trans hnext.symm⟩

end

/-- A compiled project holds the files that it is made of, in order. -/
theorem CompiledProject.files_ofFiles {files : List (Path × String)} (h : Distinct Prod.fst files) :
    InOrder Prod.fst (ofFiles files).files ∧ (ofFiles files).files.Perm files := by
  have hreplace (a b : Path × String) : (b.1, a.2).1 = a.1 ∨ (b.1, a.2).1 = b.1 := .inr rfl
  have hfold := foldl_insertAt hreplace .nil (h.perm (.of_eq (List.append_nil files).symm))
  simp only [ofFiles, insertFile_eq, List.append_nil] at hfold ⊢
  exact hfold

/-- Files of different kinds in a catalog have different paths. -/
theorem Catalog.Built.distinct_targets {p : Project} (h : p.catalog.Built) :
    Distinct SourceFile.path p.targets := by
  have hdistinct := h.inOrder.distinct
  refine List.pairwise_append.mpr ⟨hdistinct.filter _, hdistinct.filter _, fun f hf g hg => ?_⟩
  obtain ⟨hf, hmodel⟩ := List.mem_filter.mp hf
  obtain ⟨hg, htest⟩ := List.mem_filter.mp hg
  refine hdistinct.forall hf hg ?_
  rintro rfl
  simp only [decide_eq_true_eq] at hmodel htest
  rw [hmodel] at htest
  cases htest

/-! ## Parsing all files -/

theorem Body.ofSource_eq_error_iff {source : String} {e : TemplateError} :
    Body.ofSource source = .error e ↔
      Token.scan source = .error e ∨ ∃ tokens, Token.scan source = .ok tokens ∧ Body.ofTokens tokens = .error e :=
  bind_eq_error_iff

theorem SourceFile.template_eq_error_iff {f : SourceFile} {e : CompileError} :
    f.template = .error e ↔ e.path = f.path ∧ Body.ofSource f.source = .error e.error := by
  obtain ⟨path, e⟩ := e
  rw [template]
  cases Body.ofSource f.source with
  | ok body => simp
  | error e' => simp [eq_comm]

namespace Project

variable {p : Project} {schedule : Nat → Nat}

theorem parseAll_eq_error {e : CompileError} (h : p.parseAll schedule = .error e) :
    ∃ f ∈ p.catalog.files, f.template = .error e := by
  obtain ⟨f, hf, hfail⟩ := WorkPool.exists_failed_of_run (WorkPool.Outcome.result_eq_error_iff.mp h)
  exact ⟨f, hf, WorkPool.failure_eq_some_iff.mp hfail⟩

theorem exists_parseFiles_eq_ok_iff {files : List SourceFile} :
    (∃ n, p.parseFiles schedule files = .ok n) ↔ ∀ f ∈ files, ∃ t, f.template = .ok t := by
  simp only [← WorkPool.failure_eq_none_iff]
  rw [← @WorkPool.run_error_eq_none_iff _ _ _ _ _ (p.config.threads.getD 1) _ schedule, parseFiles,
    WorkPool.Outcome.result]
  split <;> simp_all [WorkPool.failure]

theorem exists_parseAll_eq_ok_iff :
    (∃ n, p.parseAll schedule = .ok n) ↔ ∀ f ∈ p.catalog.files, ∃ t, f.template = .ok t :=
  exists_parseFiles_eq_ok_iff

/-! ## Rendering all files -/

section
variable {render : SourceFile → Logged (Except CompileError String)} {parsing rendering : Nat → Nat}
  {e : CompileError} {files : List SourceFile} {compiled : CompiledProject}

/-- What the workers do to render the models and the tests. -/
def rendered (p : Project) (render : SourceFile → Logged (Except CompileError String)) (schedule : Nat → Nat) :
    WorkPool.Outcome SourceFile (Logged (Except CompileError String)) CompileError :=
  WorkPool.run render (fun r => WorkPool.failure r.result) (p.config.threads.getD 1) schedule p.targets

/-- The SQL of the files that were rendered. -/
def sqlOf (executed : List (SourceFile × Logged (Except CompileError String))) : List (Path × String) :=
  executed.filterMap fun (f, r) => r.result.toOption.map fun sql => (f.path, sql)

theorem compileWith_of_parseAll_error (h : p.parseAll parsing = .error e) :
    p.compileWith render parsing rendering = ⟨.error e, []⟩ := by
  rw [compileWith, h]

theorem compileWith_of_parseAll_ok {n : Nat} (h : p.parseAll parsing = .ok n) :
    (p.compileWith render parsing rendering).result =
      match (p.rendered render rendering).error with
      | some e => .error e
      | none => .ok (.ofFiles (sqlOf (p.rendered render rendering).executed)) := by
  simp only [compileWith, h, rendered, sqlOf]
  generalize WorkPool.run render _ _ rendering p.targets = o
  cases o.error <;> rfl

theorem rendered_error_eq_none_iff {schedule : Nat → Nat} :
    (p.rendered render schedule).error = none ↔ ∀ f ∈ p.targets, ∃ sql, (render f).result = .ok sql := by
  rw [rendered, WorkPool.run_error_eq_none_iff]
  simp only [WorkPool.failure_eq_none_iff]

/-- Files that all render give the SQL of each. -/
theorem map_sqlOf_results (h : ∀ f ∈ files, ∃ sql, (render f).result = .ok sql) :
    (sqlOf (WorkPool.results render files)).map (fun x => (x.1, Except.ok x.2)) =
      files.map fun f => (f.path, (render f).result) := by
  induction files with
  | nil => rfl
  | cons f files ih =>
    obtain ⟨sql, hsql⟩ := h f List.mem_cons_self
    have ih := ih fun g hg => h g (List.mem_cons_of_mem f hg)
    simp only [sqlOf, WorkPool.results, List.map_cons, List.filterMap_cons, hsql] at ih ⊢
    exact congrArg _ ih

theorem map_sqlOf_rendered {schedule : Nat → Nat} (h : (p.rendered render schedule).error = none) :
    ((sqlOf (p.rendered render schedule).executed).map fun x => (x.1, Except.ok x.2)).Perm
      (p.targets.map fun f => (f.path, (render f).result)) := by
  rw [← map_sqlOf_results (rendered_error_eq_none_iff.mp h)]
  exact ((WorkPool.executed_perm_results h).filterMap _).map _

theorem compileWith_eq_ok (hp : p.catalog.Built)
    (h : (p.compileWith render parsing rendering).result = .ok compiled) :
    (∀ f ∈ p.targets, ∃ sql, (render f).result = .ok sql) ∧ InOrder Prod.fst compiled.files ∧
      (compiled.files.map fun x => (x.1, Except.ok x.2)).Perm (p.targets.map fun f => (f.path, (render f).result)) ∧
      compiled.warnings = (compiled.files.filter fun x => x.2.toList.all Text.isBlank).map fun x =>
        ⟨.emptyOutput, .warn, "compiled to empty SQL", some { file := x.1.text }⟩ := by
  cases hparse : p.parseAll parsing with
  | error e =>
    rw [compileWith_of_parseAll_error hparse] at h
    cases h
  | ok n =>
    rw [compileWith_of_parseAll_ok hparse] at h
    cases hnone : (p.rendered render rendering).error with
    | some e =>
      rw [hnone] at h
      cases h
    | none =>
      rw [hnone] at h
      cases h
      have hperm := map_sqlOf_rendered hnone
      have hdistinct : Distinct Prod.fst (sqlOf (p.rendered render rendering).executed) := by
        have : Distinct Prod.fst (p.targets.map fun f => (f.path, (render f).result)) :=
          List.pairwise_map.mpr hp.distinct_targets
        exact List.pairwise_map.mp (this.perm hperm.symm)
      obtain ⟨horder, hfiles⟩ := CompiledProject.files_ofFiles hdistinct
      exact ⟨rendered_error_eq_none_iff.mp hnone, horder, (hfiles.map _).trans hperm, rfl⟩

theorem exists_compileWith_eq_ok (hparse : ∀ f ∈ p.catalog.files, ∃ t, f.template = .ok t)
    (h : ∀ f ∈ p.targets, ∃ sql, (render f).result = .ok sql) :
    ∃ compiled, (p.compileWith render parsing rendering).result = .ok compiled := by
  obtain ⟨n, hn⟩ := exists_parseAll_eq_ok_iff.mpr hparse
  rw [compileWith_of_parseAll_ok hn, rendered_error_eq_none_iff.mpr h]
  exact ⟨_, rfl⟩

theorem parses_of_compileWith (h : (p.compileWith render parsing rendering).result = .ok compiled) :
    ∀ f ∈ p.catalog.files, ∃ t, f.template = .ok t := by
  rw [← exists_parseAll_eq_ok_iff]
  cases hparse : p.parseAll parsing with
  | error e =>
    rw [compileWith_of_parseAll_error hparse] at h
    cases h
  | ok n => exact ⟨n, rfl⟩

/-- If a file cannot be parsed, its error is the outcome, whatever rendering a file would do. -/
theorem compileWith_of_not_parses (h : ∃ f ∈ p.catalog.files, ∃ e, f.template = .error e) :
    ∃ f ∈ p.catalog.files, ∃ e, Body.ofSource f.source = .error e ∧
      ∀ render, p.compileWith render parsing rendering = ⟨.error ⟨f.path, e⟩, []⟩ := by
  cases hparse : p.parseAll parsing with
  | error e =>
    obtain ⟨f, hf, htemplate⟩ := parseAll_eq_error hparse
    obtain ⟨hpath, hsource⟩ := SourceFile.template_eq_error_iff.mp htemplate
    refine ⟨f, hf, e.error, hsource, fun render => ?_⟩
    rw [compileWith_of_parseAll_error hparse, ← hpath]
  | ok n =>
    obtain ⟨f, hf, e, htemplate⟩ := h
    obtain ⟨t, ht⟩ := exists_parseAll_eq_ok_iff.mp ⟨n, hparse⟩ f hf
    rw [ht] at htemplate
    cases htemplate

theorem rendered_error_of_compileWith (hparse : ∀ f ∈ p.catalog.files, ∃ t, f.template = .ok t)
    (h : (p.compileWith render parsing rendering).result = .error e) :
    (p.rendered render rendering).error = some e := by
  obtain ⟨n, hn⟩ := exists_parseAll_eq_ok_iff.mpr hparse
  rw [compileWith_of_parseAll_ok hn] at h
  split at h
  · next he =>
    cases h
    exact he
  · cases h

/-- A single worker comes to the first file that fails, in the order of the files. -/
theorem first_of_rendered {schedule : Nat → Nat} (hone : p.config.threads.getD 1 ≤ 1)
    (h : (p.rendered render schedule).error = some e) :
    ∃ before f later, p.targets = before ++ f :: later ∧ (∀ g ∈ before, ∃ sql, (render g).result = .ok sql) ∧
      (render f).result = .error e := by
  rcases WorkPool.run_serial hone render (fun r => WorkPool.failure r.result) schedule p.targets with
    ⟨-, hrun⟩ | ⟨before, f, later, e', hsplit, hbefore, hf, hrun⟩
  · rw [rendered, hrun] at h
    cases h
  · rw [rendered, hrun] at h
    cases h
    exact ⟨before, f, later, hsplit, fun g hg => WorkPool.failure_eq_none_iff.mp (hbefore g hg),
      WorkPool.failure_eq_some_iff.mp hf⟩

end

/-- Whatever the number of threads and the interleavings of the workers are, compiling a project succeeds exactly
if every file can be parsed and every model and test renders. It then gives the SQL of each model and test and
nothing else, with a warning for each whose SQL is blank. If a file cannot be parsed, the error is that of such a
file and nothing is rendered. Otherwise the error is that of a model or test, and with one worker it is that of
the first that fails. -/
theorem compile_all_covers_targets (p : Project) (hp : p.catalog.Built) (parsing rendering : Nat → Nat) :
    let files := p.catalog.files
    let targets := p.catalog.ofKind .model ++ p.catalog.ofKind .test
    let sql (f : SourceFile) := (p.compileFile f).result
    let outcome := (p.compileWith p.compileFile parsing rendering).result
    (∀ schedule, p.compileAll schedule = p.compileWith p.compileFile schedule schedule) ∧
    (InOrder SourceFile.path (p.catalog.ofKind .model) ∧ InOrder SourceFile.path (p.catalog.ofKind .test)) ∧
    ((∃ compiled, outcome = .ok compiled) ↔
      (∀ f ∈ files, ∃ t, f.template = .ok t) ∧ ∀ f ∈ targets, ∃ text, sql f = .ok text) ∧
    (∀ compiled, outcome = .ok compiled →
      InOrder Prod.fst compiled.files ∧
      (compiled.files.map fun x => (x.1, Except.ok x.2)).Perm (targets.map fun f => (f.path, sql f)) ∧
      compiled.warnings = (compiled.files.filter fun x => x.2.toList.all Text.isBlank).map fun x =>
        ⟨.emptyOutput, .warn, "compiled to empty SQL", some { file := x.1.text }⟩) ∧
    ((∃ f ∈ files, ∃ e, f.template = .error e) →
      ∃ f ∈ files, ∃ e,
        (Token.scan f.source = .error e ∨
          ∃ tokens, Token.scan f.source = .ok tokens ∧ Body.ofTokens tokens = .error e) ∧
        ∀ render, p.compileWith render parsing rendering = ⟨.error ⟨f.path, e⟩, []⟩) ∧
    ((∀ f ∈ files, ∃ t, f.template = .ok t) → ∀ e, outcome = .error e →
      (∃ f ∈ targets, sql f = .error e) ∧
      (p.config.threads.getD 1 ≤ 1 → ∃ before f later, targets = before ++ f :: later ∧
        (∀ g ∈ before, ∃ text, sql g = .ok text) ∧ sql f = .error e)) := by
  refine ⟨fun _ => rfl, ⟨hp.inOrder.filter _, hp.inOrder.filter _⟩, ⟨?_, ?_⟩, ?_, ?_, ?_⟩
  · rintro ⟨compiled, h⟩
    exact ⟨parses_of_compileWith h, (compileWith_eq_ok hp h).1⟩
  · rintro ⟨hparse, hrender⟩
    exact exists_compileWith_eq_ok hparse hrender
  · intro compiled h
    exact (compileWith_eq_ok hp h).2
  · intro h
    obtain ⟨f, hf, e, hsource, hall⟩ := compileWith_of_not_parses h
    exact ⟨f, hf, e, Body.ofSource_eq_error_iff.mp hsource, hall⟩
  · intro hparse e h
    have herror := rendered_error_of_compileWith hparse h
    obtain ⟨f, hf, hfail⟩ := WorkPool.exists_failed_of_run herror
    exact ⟨⟨f, hf, WorkPool.failure_eq_some_iff.mp hfail⟩, fun hone => first_of_rendered hone herror⟩

/-- A model and a test, with two workers. -/
theorem compile_all_covers_targets_of_two :
    ∃ c, Catalog.ofFiles [(⟨"tests/t.sql"⟩, "select 1"), (⟨"models/a.sql"⟩, "{{ this }}")] = .ok c ∧
      ∀ parsing rendering,
        let p : Project := { config := { threads := some 2 }, catalog := c }
        ∃ compiled, (p.compileWith p.compileFile parsing rendering).result = .ok compiled ∧
          compiled.files.length = 2 := by
  have hmodel : Body.ofSource "{{ this }}" = .ok ⟨⟨1, 1⟩, [.output ⟨1, 1⟩ (.name ⟨1, 4⟩ "this")]⟩ := by cbv
  have htest : Body.ofSource "select 1" = .ok ⟨⟨1, 1⟩, [.text ⟨1, 1⟩ "select 1"]⟩ := by cbv
  let model : SourceFile := ⟨⟨"models/a.sql"⟩, .model, "{{ this }}"⟩
  let test : SourceFile := ⟨⟨"tests/t.sql"⟩, .test, "select 1"⟩
  have hbuilt := Catalog.Built.ofFiles [(⟨"tests/t.sql"⟩, "select 1"), (⟨"models/a.sql"⟩, "{{ this }}")] rfl
  refine ⟨_, rfl, fun parsing rendering => ?_⟩
  intro p
  have hfiles : p.catalog.files = [model, test] := rfl
  have htargets : p.catalog.ofKind .model ++ p.catalog.ofKind .test = [model, test] := rfl
  have hm : (p.compileFile model).result = .ok "public.a" := by
    simp only [Project.compileFile, SourceFile.template, model, hmodel]
    rfl
  have ht : (p.compileFile test).result = .ok "select 1" := by
    simp only [Project.compileFile, SourceFile.template, test, htest]
    rfl
  obtain ⟨-, -, hok, hfound, -⟩ := compile_all_covers_targets p hbuilt parsing rendering
  obtain ⟨compiled, h⟩ := hok.mpr (by
    rw [htargets, hfiles]
    simp [hm, ht, SourceFile.template, model, test, hmodel, htest])
  refine ⟨compiled, h, ?_⟩
  have := (hfound compiled h).2.1.length_eq
  rwa [List.length_map, List.length_map, htargets] at this

end Project

end TemplatedSql
