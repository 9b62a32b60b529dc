import TemplatedSql.Project.Compile

/-! # Templates that were parsed before

A compiler keeps the template of each file that it has parsed, for all its commands and all its workers. What is kept is
what parsing the file again would give, so no command shows which files were parsed before it or beside it. -/

namespace TemplatedSql

deriving instance DecidableEq for Path
deriving instance DecidableEq for SourceFile

/-- The templates that are kept, file by file. -/
abbrev Kept := SourceFile → Option Template

namespace Kept

/-- Before any file is parsed. -/
def empty : Kept :=
  fun _ => none

/-- Parses a file unless its template is kept, and keeps the template. An error is not kept. -/
def parse (kept : Kept) (f : SourceFile) : Except CompileError Template × Kept :=
  match kept f with
  | some t => (.ok t, kept)
  | none =>
    match f.template with
    | .ok t => (.ok t, fun g => if g = f then some t else kept g)
    | .error e => (.error e, kept)

/-- What is kept once some files have been parsed, one after the other. -/
inductive Reached : Kept → Prop
  | empty : Reached empty
  | parse {kept : Kept} (f : SourceFile) : Reached kept → Reached (kept.parse f).2

/-- Every template that is kept is that of its file. -/
def Sound (kept : Kept) : Prop :=
  ∀ f t, kept f = some t → f.template = .ok t

variable {kept : Kept} {f : SourceFile}

theorem Sound.parse_eq (h : kept.Sound) (f : SourceFile) : (kept.parse f).1 = f.template := by
  rw [parse]
  cases hf : kept f with
  | some t => exact (h f t hf).symm
  | none => cases f.template <;> rfl

theorem Sound.parse (h : kept.Sound) (f : SourceFile) : (kept.parse f).2.Sound := by
  rw [Kept.parse]
  cases hf : kept f with
  | some t => exact h
  | none =>
    cases ht : f.template with
    | error e => exact h
    | ok t =>
      intro g u hg
      dsimp only at hg
      split at hg
      · next heq =>
        rw [heq, ht, Option.some.inj hg]
      · exact h g u hg

theorem Reached.sound (h : kept.Reached) : kept.Sound := by
  induction h with
  | empty =>
    intro f t hf
    cases hf
  | parse f _ ih => exact ih.parse f

end Kept

/-- A way to parse files while others are parsed: each one is parsed with what is kept by then. -/
def Recalls (parse : SourceFile → Except CompileError Template) : Prop :=
  ∀ f, ∃ kept : Kept, kept.Reached ∧ parse f = (kept.parse f).1

theorem Recalls.eq {parse : SourceFile → Except CompileError Template} (h : Recalls parse) :
    parse = SourceFile.template := by
  funext f
  obtain ⟨kept, hkept, hparse⟩ := h f
  exact hparse.trans (hkept.sound.parse_eq f)

/-! ### Commands with a way to parse files -/

namespace Project
variable (p : Project)

/-- Parses files. -/
def parseFilesBy (parse : SourceFile → Except CompileError Template) (schedule : Nat → Nat) (files : List SourceFile) :
    Except CompileError Nat :=
  (WorkPool.run parse WorkPool.failure (p.config.threads.getD 1) schedule files).result

/-- What a file is rendered in, where the templates of the macro files are parsed when they are asked for. -/
def environmentBy (parse : SourceFile → Except CompileError Template) (f : SourceFile) : Environment :=
  { p.environment f with
    library := p.catalog.macros.filterMap fun (name, g) => (parse g).toOption.map fun t => (name, t) }

/-- Renders a file. -/
def compileFileBy (parse : SourceFile → Except CompileError Template) (f : SourceFile) :
    Logged (Except CompileError String) :=
  match parse f with
  | .error e => ⟨.error e, []⟩
  | .ok t =>
    match Session.render (p.environmentBy parse f) t.body .initial with
    | .done sql c => ⟨.ok sql, c.logs.toList⟩
    | .failed e c => ⟨.error ⟨f.path, e⟩, c.logs.toList⟩
    | .exhausted => ⟨.error ⟨f.path, .start, .recursionLimit maxCallDepth⟩, []⟩

/-- Renders the model that goes by a name. The macro files are parsed in one way, and the files for rendering in
another. -/
def compileModelBy (parse render : SourceFile → Except CompileError Template) (schedule : Nat → Nat) (name : String) :
    Logged (Except ProjectError String) :=
  match p.catalog.model? name with
  | none => ⟨.error (.modelNotFound name), []⟩
  | some f =>
    match p.parseFilesBy parse schedule (p.catalog.ofKind .macroFile) with
    | .error e => ⟨.error (.compile e), []⟩
    | .ok _ =>
      let compiled := p.compileFileBy render f
      { compiled with result := compiled.result.mapError .compile }

/-- Renders every model and every test of the project. All files are parsed in one way, and then the files for rendering
each one in a way of its own. -/
def compileAllBy (parse : SourceFile → Except CompileError Template)
    (render : SourceFile → SourceFile → Except CompileError Template) (parsing rendering : Nat → Nat) :
    Logged (Except CompileError CompiledProject) :=
  match p.parseFilesBy parse parsing p.catalog.files with
  | .error e => ⟨.error e, []⟩
  | .ok _ =>
    let outcome := WorkPool.run (fun f => p.compileFileBy (render f) f) (fun r => WorkPool.failure r.result)
      (p.config.threads.getD 1) rendering p.targets
    let logs := outcome.executed.flatMap fun e => e.2.logs
    match outcome.error with
    | some e => ⟨.error e, logs⟩
    | none =>
      let files := outcome.executed.filterMap fun (f, r) => r.result.toOption.map fun sql => (f.path, sql)
      ⟨.ok (.ofFiles files), logs⟩

variable {p} {parse render : SourceFile → Except CompileError Template}

theorem compileFileBy_eq (h : Recalls parse) (f : SourceFile) : p.compileFileBy parse f = p.compileFile f := by
  rw [h.eq]
  rfl

/-- Rendering a model does not show what was parsed before. -/
theorem compileModelBy_eq (hparse : Recalls parse) (hrender : Recalls render) (schedule : Nat → Nat) (name : String) :
    p.compileModelBy parse render schedule name = p.compileModel schedule name := by
  rw [hparse.eq, hrender.eq]
  rfl

/-- Rendering the project does not show what was parsed before, or by which worker. -/
theorem compileAllBy_eq {render : SourceFile → SourceFile → Except CompileError Template} (hparse : Recalls parse)
    (hrender : ∀ f, Recalls (render f)) (parsing rendering : Nat → Nat) :
    p.compileAllBy parse render parsing rendering = p.compileWith p.compileFile parsing rendering := by
  have hfiles : (fun f => p.compileFileBy (render f) f) = p.compileFile := funext fun f => compileFileBy_eq (hrender f) f
  rw [compileAllBy, hparse.eq, hfiles]
  rfl

end Project

end TemplatedSql
