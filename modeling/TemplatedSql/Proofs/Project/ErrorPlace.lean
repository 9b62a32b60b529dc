import TemplatedSql.Proofs.Grammar.Places
import TemplatedSql.Proofs.Project.Provenance

/-! # Where the errors of a project point

An error of a file that is rendered names that file. Its place is the start of a token there, or of a token of a
macro file, inside a macro that was being rendered and failed with it. -/

namespace TemplatedSql

/-! ### Places in files -/

/-- A place where a token of a file starts. -/
def SourceFile.StartsAt (f : SourceFile) (p : Position) : Prop :=
  ∃ tokens, Token.scan f.source = .ok tokens ∧ ∃ t ∈ tokens, t.start = p

/-- A place in a macro that a file defines. -/
def SourceFile.MacroPlace (f : SourceFile) (p : Position) : Prop :=
  ∃ t, f.template = .ok t ∧ ∃ d ∈ t.body.macros, p ∈ d.places

/-- While the file is rendered, a macro that another file defines is rendered and fails with the error, which has its
    place in that macro. -/
def Project.FailsInMacro (p : Project) (f m : SourceFile) (e : TemplateError) : Prop :=
  ∃ t u d, f.template = .ok t ∧ m.template = .ok u ∧ u.body.Defines d ∧ e.position ∈ d.places ∧
    t.body.MacroFails (p.environment f) d e

namespace SourceFile
variable {f : SourceFile} {t : Template}

theorem ofSource_of_template (h : f.template = .ok t) : Body.ofSource f.source = .ok t.body := by
  unfold template at h
  cases hsource : Body.ofSource f.source with
  | error e =>
    rw [hsource] at h
    cases h
  | ok body =>
    rw [hsource] at h
    cases h
    rfl

theorem startsAt_of_mem_places (h : f.template = .ok t) {p : Position} (hp : p ∈ t.body.places) : f.StartsAt p := by
  obtain ⟨tokens, hscan, hplaces⟩ := Body.places_of_ofSource (ofSource_of_template h)
  exact ⟨tokens, hscan, hplaces p hp⟩

theorem MacroPlace.startsAt {p : Position} (h : f.MacroPlace p) : f.StartsAt p := by
  obtain ⟨t, ht, d, hd, hp⟩ := h
  exact startsAt_of_mem_places ht (t.body.places_of_mem_macros d hd hp)

end SourceFile

namespace Project
variable {p : Project} {f : SourceFile}

/-- The templates that a file can import are those of the macro files. -/
theorem macroFile_of_library {name : String} {u : Template} (h : (p.environment f).library.get? name = some u) :
    ∃ m ∈ p.catalog.macros, m.2.template = .ok u := by
  obtain ⟨⟨key, m⟩, hm, hlibrary⟩ := List.mem_filterMap.mp (Table.mem_of_get? h)
  obtain ⟨t, ht, heq⟩ := Option.map_eq_some_iff.mp hlibrary
  cases heq
  exact ⟨_, hm, toOption_eq_some_iff.mp ht⟩

/-- An error of a file that can be parsed is one of its rendering. -/
theorem render_of_compileFile_eq_error {t : Template} (ht : f.template = .ok t) {e : CompileError}
    (he : (p.compileFile f).result = .error e) :
    e.path = f.path ∧ ∃ c, Session.render (p.environment f) t.body .initial = .failed e.error c := by
  have hf : (p.environment f).Forgets := Environment.forgets_release rfl
  obtain ⟨d, hd⟩ := (Session.render_keeps hf t.body).ends
    (Nat.lt_succ_of_lt ((p.environment f).room_lt_allowance .initial))
  rw [compileFile, ht] at he
  dsimp only at he
  cases hrender : Session.render (p.environment f) t.body .initial with
  | done sql c =>
    rw [hrender] at he
    cases he
  | failed error c =>
    rw [hrender] at he
    cases he
    exact ⟨rfl, c, rfl⟩
  | exhausted =>
    rw [hrender] at hd
    cases hd

/-- An error of a file that can be parsed names the file. It points at a token of the file, or else at one of a macro
    file, in a macro: in one that was being rendered, and whose body failed with this error. -/
theorem compile_error_points_at_token {t : Template} (ht : f.template = .ok t) {e : CompileError}
    (he : (p.compileFile f).result = .error e) : e.path = f.path ∧ (f.StartsAt e.error.position ∨
      ∃ m ∈ p.catalog.macros, m.2.StartsAt e.error.position ∧ m.2.MacroPlace e.error.position ∧
        p.FailsInMacro f m.2 e.error) := by
  obtain ⟨hpath, c, hrender⟩ := render_of_compileFile_eq_error ht he
  refine ⟨hpath, ?_⟩
  rcases Session.place_of_error rfl (fun _ _ => p.globals_scopes) (fun _ _ => p.overlay_scopes)
    (fun _ => p.hosts_keep f) hrender with hbody | ⟨name, u, d, hu, hd, hplace, hfails⟩
  · exact .inl (SourceFile.startsAt_of_mem_places ht hbody)
  · obtain ⟨m, hm, hm'⟩ := macroFile_of_library hu
    have hmacro : m.2.MacroPlace e.error.position := ⟨u, hm', hd.outermost hplace⟩
    exact .inr ⟨m, hm, hmacro.startsAt, hmacro, t, u, d, ht, hm', hd, hplace, hfails⟩

/-- A model that calls a macro of another file, which fails in its fourth line. -/
theorem compileFile_of_failing_macro : ∃ c f t,
    Catalog.ofFiles [(⟨"macros/m.sql"⟩, "\x7b% macro m() %\x7d\n\n\n\x7b\x7b nope() \x7d\x7d\x7b% endmacro %\x7d"),
      (⟨"models/a.sql"⟩, "\x7b\x7b m() \x7d\x7d")] = .ok c ∧
    f ∈ c.ofKind .model ∧ f.source = "\x7b\x7b m() \x7d\x7d" ∧ f.template = .ok t ∧
    (compileFile { config := {}, catalog := c } f).result = .error ⟨f.path, ⟨⟨4, 4⟩, .undefinedFunction "nope"⟩⟩ := by
  have hmacro : Body.ofSource "\x7b% macro m() %\x7d\n\n\n\x7b\x7b nope() \x7d\x7d\x7b% endmacro %\x7d" =
      .ok ⟨⟨1, 1⟩, [.macroDef ⟨⟨1, 4⟩, "m", [], ⟨⟨1, 16⟩, [.text ⟨1, 16⟩ "\n\n\n",
        .output ⟨4, 1⟩ (.call ⟨4, 4⟩ (.name ⟨4, 4⟩ "nope") [])]⟩⟩]⟩ := by cbv
  have hmodel : Body.ofSource "\x7b\x7b m() \x7d\x7d" =
      .ok ⟨⟨1, 1⟩, [.output ⟨1, 1⟩ (.call ⟨1, 4⟩ (.name ⟨1, 4⟩ "m") [])]⟩ := by cbv
  let file : SourceFile :=
    ⟨⟨"macros/m.sql"⟩, .macroFile, "\x7b% macro m() %\x7d\n\n\n\x7b\x7b nope() \x7d\x7d\x7b% endmacro %\x7d"⟩
  let model : SourceFile := ⟨⟨"models/a.sql"⟩, .model, "\x7b\x7b m() \x7d\x7d"⟩
  have htemplate : model.template = .ok ⟨"models/a", ⟨⟨1, 1⟩, [.output ⟨1, 1⟩ (.call ⟨1, 4⟩ (.name ⟨1, 4⟩ "m") [])]⟩⟩ := by
    simp only [SourceFile.template, model, hmodel]
    rfl
  let c : Catalog := ⟨[file, model], [("m", file)], [("models/a", model), ("a", model)]⟩
  refine ⟨c, model, _, rfl, List.mem_singleton_self _, rfl, htemplate, ?_⟩
  have hlibrary : c.library = [("m", ⟨"macros/m", ⟨⟨1, 1⟩, [.macroDef ⟨⟨1, 4⟩, "m", [], ⟨⟨1, 16⟩,
      [.text ⟨1, 16⟩ "\n\n\n", .output ⟨4, 1⟩ (.call ⟨4, 4⟩ (.name ⟨4, 4⟩ "nope") [])]⟩⟩]⟩⟩)] := by
    simp only [Catalog.library, c, List.filterMap, SourceFile.template, file, hmacro]
    rfl
  simp only [compileFile, htemplate, environment, hlibrary]
  rfl

theorem compile_error_points_at_token_of_macro : ∃ (p : Project) (f : SourceFile) (t : Template) (e : CompileError),
    f.template = .ok t ∧ (p.compileFile f).result = .error e ∧ e.path = f.path ∧ (f.StartsAt e.error.position ∨
      ∃ m ∈ p.catalog.macros, m.2.StartsAt e.error.position ∧ m.2.MacroPlace e.error.position ∧
        p.FailsInMacro f m.2 e.error) := by
  obtain ⟨c, f, t, -, -, -, ht, he⟩ := compileFile_of_failing_macro
  exact ⟨_, f, t, _, ht, he, compile_error_points_at_token ht he⟩

/-- The place of an error need not be one in the file that the error names. -/
theorem compile_error_points_elsewhere : ∃ (c : Catalog) (f : SourceFile) (t : Template) (e : CompileError),
    Catalog.ofFiles [(⟨"macros/m.sql"⟩, "\x7b% macro m() %\x7d\n\n\n\x7b\x7b nope() \x7d\x7d\x7b% endmacro %\x7d"),
      (⟨"models/a.sql"⟩, "\x7b\x7b m() \x7d\x7d")] = .ok c ∧
    f ∈ c.ofKind .model ∧ f.template = .ok t ∧ (compileFile { config := {}, catalog := c } f).result = .error e ∧
    ¬f.StartsAt e.error.position := by
  obtain ⟨c, f, t, hc, hf, hsource, ht, he⟩ := compileFile_of_failing_macro
  refine ⟨c, f, t, _, hc, hf, ht, he, ?_⟩
  rintro ⟨tokens, hscan, k, hk, hstart⟩
  have htokens : Token.scan "\x7b\x7b m() \x7d\x7d" = .ok [⟨.exprOpen, "\x7b\x7b", ⟨1, 1⟩⟩, ⟨.identifier, "m", ⟨1, 4⟩⟩,
      ⟨.leftParen, "(", ⟨1, 5⟩⟩, ⟨.rightParen, ")", ⟨1, 6⟩⟩, ⟨.exprClose, "\x7d\x7d", ⟨1, 8⟩⟩,
      ⟨.eof, "", ⟨1, 10⟩⟩] := by cbv
  rw [hsource, htokens] at hscan
  cases hscan
  change k.start = ⟨4, 4⟩ at hstart
  revert k
  decide

end Project

end TemplatedSql
