import Mathlib
import TemplatedSql.Proofs.Project.Index

/-! # What a catalog lists

A catalog lists the file that was recorded last under each path. Where directories of two kinds reach the same file, it
is found as of one kind and listed as of the other; where they do not, what is found and what is listed agree, but for
models that no name finds since their lookup path ends with an extension. -/

namespace TemplatedSql

/-! ### Paths of files -/

instance Component.lawfulEqCmp : Std.LawfulEqCmp Component.order where
  eq_of_compare {a b} h := by
    cases a <;> cases b <;> first | rfl | (simp_all [order, rank])

/-- Paths of the same place have the same components. -/
theorem Path.order_eq_iff {p q : Path} : p.order q = .eq ↔ p.components = q.components := by
  show List.compareLex Component.order p.components q.components = .eq ↔ _
  exact Std.LawfulEqCmp.compare_eq_iff_eq

theorem Path.stem_congr {p q : Path} (h : p.components = q.components) : p.stem = q.stem := by
  rw [stem, stem, fileName?, fileName?, h]

theorem Path.lookup_congr {p q : Path} (h : p.components = q.components) : p.lookup = q.lookup := by
  rw [lookup, lookup, fileName?, fileName?, h, stem_congr h]

theorem SourceFile.keys_congr {f g : SourceFile} (hpath : f.path.order g.path = .eq) (hkind : f.kind = g.kind) :
    f.keys = g.keys := by
  have hcomponents := Path.order_eq_iff.mp hpath
  rw [keys, keys, hkind, name, name, names, names, Path.stem_congr hcomponents, Path.lookup_congr hcomponents]

namespace Catalog

/-! ### The last file of each path -/

variable {c d : Catalog} {f g : SourceFile} {files recorded : List SourceFile}

/-- Files recorded one after the other, listed in the order of their paths. -/
def listing (recorded : List SourceFile) : List SourceFile :=
  recorded.foldl (fun files f => insertFile f files) []

theorem listing_append (recorded : List SourceFile) (f : SourceFile) :
    listing (recorded ++ [f]) = insertFile f (listing recorded) :=
  List.foldl_append

theorem inOrder_listing (recorded : List SourceFile) : InOrder SourceFile.path (listing recorded) := by
  induction recorded using List.reverseRecOn with
  | nil => exact .nil
  | append_singleton recorded f ih =>
    rw [listing_append, insertFile_eq]
    exact ih.insertAt fun _ _ => .inl rfl

/-- Inserting a file replaces that of the same path. -/
theorem mem_insertFile (h : InOrder SourceFile.path files) :
    g ∈ insertFile f files ↔ g = f ∨ (g ∈ files ∧ g.path.order f.path ≠ .eq) := by
  have hafter : ∀ {g : SourceFile}, f.path.order g.path = .lt → g.path.order f.path ≠ .eq := by
    intro g hlt heq
    rw [Std.OrientedCmp.gt_iff_lt.mpr hlt] at heq
    cases heq
  induction files with
  | nil => simp [insertFile]
  | cons b files ih =>
    obtain ⟨hb, hfiles⟩ := List.pairwise_cons.mp h
    rw [insertFile]
    split
    · next hlt =>
      have hothers : ∀ g ∈ b :: files, g.path.order f.path ≠ .eq := by
        refine List.forall_mem_cons.mpr ⟨hafter hlt, fun g hg => hafter ?_⟩
        exact Std.TransCmp.lt_trans hlt (hb g hg)
      exact List.mem_cons.trans (or_congr_right ⟨fun hg => ⟨hg, hothers g hg⟩, And.left⟩)
    · next heq =>
      have hothers : ∀ g ∈ files, g.path.order f.path ≠ .eq := fun g hg =>
        hafter (Std.TransCmp.lt_of_eq_of_lt heq (hb g hg))
      rw [List.mem_cons, List.mem_cons]
      refine or_congr_right ⟨fun hg => ⟨.inr hg, hothers g hg⟩, ?_⟩
      rintro ⟨rfl | hg, hne⟩
      · exact absurd (Std.OrientedCmp.eq_symm heq) hne
      · exact hg
    · next hgt =>
      have hbefore : b.path.order f.path ≠ .eq := fun heq => by
        rw [Std.OrientedCmp.eq_symm heq] at hgt
        cases hgt
      refine (List.mem_cons.trans (or_congr_right (ih hfiles))).trans ?_
      rw [List.mem_cons]
      constructor
      · rintro (rfl | rfl | ⟨hg, hne⟩)
        · exact .inr ⟨.inl rfl, hbefore⟩
        · exact .inl rfl
        · exact .inr ⟨.inr hg, hne⟩
      · rintro (rfl | ⟨rfl | hg, hne⟩)
        · exact .inr (.inl rfl)
        · exact .inl rfl
        · exact .inr (.inr ⟨hg, hne⟩)

/-- The last of the files recorded under a path. -/
def LastOfPath (recorded : List SourceFile) (f : SourceFile) : Prop :=
  ∃ before after, recorded = before ++ f :: after ∧ ∀ g ∈ after, f.path.order g.path ≠ .eq

theorem mem_listing : f ∈ listing recorded ↔ LastOfPath recorded f := by
  induction recorded using List.reverseRecOn with
  | nil => simp [listing, LastOfPath]
  | append_singleton recorded g ih =>
    rw [listing_append, mem_insertFile (inOrder_listing recorded), ih]
    constructor
    · rintro (rfl | ⟨⟨before, after, rfl, hafter⟩, hne⟩)
      · exact ⟨recorded, [], rfl, List.forall_mem_nil _⟩
      · refine ⟨before, after ++ [g], by simp, fun x hx => ?_⟩
        rcases List.mem_append.mp hx with hx | hx
        · exact hafter x hx
        · obtain rfl := List.mem_singleton.mp hx
          exact hne
    · rintro ⟨before, after, hsplit, hafter⟩
      rcases List.eq_nil_or_concat' after with rfl | ⟨after, x, rfl⟩
      · obtain ⟨-, hlast⟩ := List.append_inj' hsplit rfl
        exact .inl (List.cons.inj hlast).1.symm
      · obtain ⟨hrecorded, hlast⟩ := List.append_inj' (hsplit.trans (by simp : _ = (before ++ f :: after) ++ [x])) rfl
        obtain ⟨hbefore, hx⟩ := List.forall_mem_append.mp hafter
        rw [(List.cons.inj hlast).1]
        exact .inr ⟨⟨before, after, hrecorded, hbefore⟩, hx x List.mem_cons_self⟩

/-- Under each path that a file was recorded under, a file is listed. -/
theorem exists_listed (h : f ∈ recorded) : ∃ g ∈ listing recorded, f.path.order g.path = .eq := by
  induction recorded using List.reverseRecOn with
  | nil => cases h
  | append_singleton recorded x ih =>
    simp only [listing_append, mem_insertFile (inOrder_listing recorded)]
    rcases List.mem_append.mp h with h | h
    · obtain ⟨g, hg, heq⟩ := ih h
      by_cases hx : g.path.order x.path = .eq
      · exact ⟨x, .inl rfl, Std.TransCmp.eq_trans heq hx⟩
      · exact ⟨g, .inr ⟨hg, hx⟩, heq⟩
    · obtain rfl := List.mem_singleton.mp h
      exact ⟨f, .inl rfl, Std.ReflCmp.compare_self⟩

/-! ### Recording what was found -/

/-- The file that is recorded for one that was found under a path, unless it is left out or holds no text. -/
def sourceOf (paths : SourcePaths) (root : Path) (kind : FileKind) (found : Path × Option String) : Option SourceFile :=
  let shown := found.1.relativeTo root
  if found.1.extension? ≠ some "sql" || paths.excludes (shown.lookupText ++ ".sql") then none
  else found.2.map fun source => ⟨shown, kind, source⟩

/-- The files that are recorded for a directory. One that is not there has none. -/
def filesIn (paths : SourcePaths) (root : Path) (here : WorkingDirectory) (kind : FileKind) (directory : String) :
    List SourceFile :=
  let start := root.join ⟨directory⟩
  match here.find start with
  | .error _ => []
  | .ok t => (t.files start).flatMap fun found => (sourceOf paths root kind found).toList

/-- The files of the directories of each kind, in the order in which they are recorded. -/
def foundFiles (paths : SourcePaths) (root : Path) (here : WorkingDirectory) : List SourceFile :=
  (paths.macros.map (FileKind.macroFile, ·) ++ paths.models.map (FileKind.model, ·) ++
    paths.tests.map (FileKind.test, ·)).flatMap fun (kind, directory) => filesIn paths root here kind directory

/-- Where every step of a fold records some files, all of the fold records them one after the other. -/
theorem Indexes.foldlM {α : Type} {step : Catalog → α → Except CatalogError Catalog} (of : α → List SourceFile)
    (hstep : ∀ {c d recorded a}, c.Indexes recorded → step c a = .ok d → d.Indexes (recorded ++ of a))
    (h : c.Indexes recorded) {items : List α} (hok : items.foldlM step c = .ok d) :
    d.Indexes (recorded ++ items.flatMap of) := by
  induction items generalizing c recorded with
  | nil =>
    cases hok
    rwa [List.flatMap_nil, List.append_nil]
  | cons a items ih =>
    rw [List.foldlM_cons] at hok
    obtain ⟨c', hc', hok⟩ := bind_eq_ok_iff.mp hok
    rw [List.flatMap_cons, ← List.append_assoc]
    exact ih (hstep h hc') hok

theorem Indexes.recordFound {paths : SourcePaths} {root : Path} {kind : FileKind} {found : Path × Option String}
    (h : c.Indexes recorded) (hok : recordFound paths root kind c found = .ok d) :
    d.Indexes (recorded ++ (sourceOf paths root kind found).toList) := by
  simp only [Catalog.recordFound] at hok
  rw [sourceOf]
  split at hok
  · next hout =>
    cases hok
    rw [if_pos hout, Option.toList_none, List.append_nil]
    exact h
  · next hin =>
    rw [if_neg hin]
    cases htext : found.2 with
    | none =>
      rw [htext] at hok
      cases hok
    | some source =>
      rw [htext] at hok
      rcases h.record ⟨found.1.relativeTo root, kind, source⟩ with ⟨d', hd', hindexes⟩ | ⟨first, name, -, he⟩
      · obtain rfl : d' = d := Except.ok.inj (hd'.symm.trans hok)
        exact hindexes
      · have hcontra := he.symm.trans hok
        cases hcontra

/-- A catalog that is discovered holds the files that were found. -/
theorem indexes_discover {paths : SourcePaths} {root : Path} {here : WorkingDirectory}
    (h : discover paths root here = .ok c) : c.Indexes (foundFiles paths root here) := by
  rw [discover] at h
  refine indexes_empty.foldlM (fun (kind, directory) => filesIn paths root here kind directory) ?_ h
  rintro c d recorded ⟨kind, directory⟩ hc hok
  unfold filesIn
  cases hfind : here.find (root.join ⟨directory⟩) with
  | error e =>
    simp only [hfind] at hok ⊢
    cases hok
    rwa [List.append_nil]
  | ok t =>
    simp only [hfind] at hok ⊢
    exact hc.foldlM (fun found => (sourceOf paths root kind found).toList) (fun h hok => h.recordFound hok) hok

/-! ### Agreement -/

theorem eq_of_order_eq (h : InOrder SourceFile.path files) (hf : f ∈ files) (hg : g ∈ files)
    (heq : f.path.order g.path = .eq) : f = g := by
  have : Std.Symm fun f g : SourceFile => f.path.order g.path ≠ .eq :=
    ⟨fun _ _ hne heq => hne (Std.OrientedCmp.eq_symm heq)⟩
  have hne : files.Pairwise fun f g => f.path.order g.path ≠ .eq := h.imp fun hlt heq => by
    rw [hlt] at heq
    cases heq
  by_contra hfg
  exact hne.forall hf hg hfg heq

/-- What a catalog finds by name is listed, a macro file that is listed is found by its name, and each file that was found
    is listed as what it is. -/
structure Lists (c : Catalog) (found : List SourceFile) : Prop where
  macro_listed : ∀ name f, c.macro? name = some f → f ∈ c.ofKind .macroFile
  model_listed : ∀ name f, c.model? name = some f → f ∈ c.ofKind .model
  macro_reached : ∀ f ∈ c.ofKind .macroFile, c.macro? f.name = some f
  stored : ∀ f ∈ found, ∃ g ∈ c.files, f.path.order g.path = .eq ∧ g.kind = f.kind ∧
    (f.kind = .macroFile ∨ f.kind = .model → g = f)

/-- What a catalog finds by name and what it lists agree: what is listed is found as well, a model by each of the names
    that it goes by. -/
structure Coherent (c : Catalog) (found : List SourceFile) : Prop extends Lists c found where
  model_reached : ∀ f ∈ c.ofKind .model, ∀ name ∈ f.names, c.model? name = some f

theorem LastOfPath.mem (h : LastOfPath recorded f) : f ∈ recorded := by
  obtain ⟨before, after, rfl, -⟩ := h
  simp

theorem keys_ne_nil (h : f.kind = .macroFile ∨ f.kind = .model) : f.keys ≠ [] := by
  rcases h with h | h
  · rw [SourceFile.keys_of_macroFile h]
    exact List.cons_ne_nil _ _
  · rw [SourceFile.keys_of_model h, SourceFile.names]
    split
    · exact List.cons_ne_nil _ _
    · simp_all

/-- Two macro files or two models of one path cannot both be in a catalog. -/
theorem clashes_of_order_eq (hpath : f.path.order g.path = .eq) (hkind : f.kind = g.kind)
    (hregistered : f.kind = .macroFile ∨ f.kind = .model) : f.Clashes g := by
  obtain ⟨name, hname⟩ := List.exists_mem_of_ne_nil _ (keys_ne_nil hregistered)
  exact ⟨hkind, name, hname, SourceFile.keys_congr hpath hkind ▸ hname⟩

/-- A macro file or a model is the only one of its path, where no file of another kind has that path. -/
theorem Indexes.lastOfPath (h : c.Indexes recorded)
    (hkinds : ∀ f ∈ recorded, ∀ g ∈ recorded, f.path.order g.path = .eq → f.kind = g.kind) (hf : f ∈ recorded)
    (hregistered : f.kind = .macroFile ∨ f.kind = .model) : LastOfPath recorded f := by
  obtain ⟨before, after, rfl⟩ := List.append_of_mem hf
  refine ⟨before, after, rfl, fun g hg heq => ?_⟩
  have hclash := clashes_of_order_eq heq (hkinds f hf g (by simp [hg]) heq) hregistered
  exact (List.pairwise_cons.mp (List.pairwise_append.mp h.apart).2.1).1 g hg hclash

theorem Indexes.mem_files (h : c.Indexes recorded) : f ∈ c.files ↔ LastOfPath recorded f := by
  rw [h.files_eq]
  exact mem_listing

theorem mem_ofKind {kind : FileKind} : f ∈ c.ofKind kind ↔ f ∈ c.files ∧ f.kind = kind := by
  rw [ofKind, List.mem_filter, decide_eq_true_iff]

/-- What is found by name is listed where no path has files of two kinds. -/
theorem Indexes.lists_iff (h : c.Indexes recorded) : c.Lists recorded ↔
    ∀ f ∈ recorded, ∀ g ∈ recorded, f.path.order g.path = .eq → f.kind = g.kind := by
  constructor
  · intro hlists f hf g hg heq
    obtain ⟨f', hf', hpath, hkind, -⟩ := hlists.stored f hf
    obtain ⟨g', hg', hpath', hkind', -⟩ := hlists.stored g hg
    have hsame : f'.path.order g'.path = .eq :=
      Std.TransCmp.eq_trans (Std.OrientedCmp.eq_symm hpath) (Std.TransCmp.eq_trans heq hpath')
    rw [h.files_eq] at hf' hg'
    rw [← hkind, ← hkind', eq_of_order_eq (inOrder_listing recorded) hf' hg' hsame]
  · intro hkinds
    refine ⟨fun name f hf => ?_, fun name f hf => ?_, fun f hf => ?_, fun f hf => ?_⟩
    · obtain ⟨hmem, hkind, -⟩ := h.macro?_iff.mp hf
      exact mem_ofKind.mpr ⟨h.mem_files.mpr (h.lastOfPath hkinds hmem (.inl hkind)), hkind⟩
    · obtain ⟨hmem, hkind, -⟩ := h.model?_iff.mp hf
      exact mem_ofKind.mpr ⟨h.mem_files.mpr (h.lastOfPath hkinds hmem (.inr hkind)), hkind⟩
    · obtain ⟨hmem, hkind⟩ := mem_ofKind.mp hf
      exact h.macro?_iff.mpr ⟨(h.mem_files.mp hmem).mem, hkind, rfl⟩
    · by_cases hregistered : f.kind = .macroFile ∨ f.kind = .model
      · exact ⟨f, h.mem_files.mpr (h.lastOfPath hkinds hf hregistered), Std.ReflCmp.compare_self, rfl, fun _ => rfl⟩
      · obtain ⟨g, hg, heq⟩ := exists_listed hf
        have hmem : g ∈ recorded := (mem_listing.mp hg).mem
        exact ⟨g, h.files_eq ▸ hg, heq, (hkinds f hf g hmem heq).symm, fun hkind => absurd hkind hregistered⟩

/-- A model whose lookup path ends with an extension is found by no name. -/
theorem Indexes.model?_ne_of_keepsExtension (h : c.Indexes recorded) (hkeeps : f.KeepsExtension) {name : String} :
    c.model? name ≠ some f := by
  intro hfound
  obtain ⟨-, -, hname⟩ := h.model?_iff.mp hfound
  obtain ⟨-, hbase⟩ := trimExtension_eq_iff.mp (rfl : trimExtension name = _)
  exact hbase ((SourceFile.extension_suffix_iff hname).mpr hkeeps)

/-- What is found by name and what is listed agree where no path has files of two kinds and no lookup path of a model ends
    with an extension. -/
theorem Indexes.coherent_iff (h : c.Indexes recorded) : c.Coherent recorded ↔
    (∀ f ∈ recorded, ∀ g ∈ recorded, f.path.order g.path = .eq → f.kind = g.kind) ∧
      ∀ f ∈ recorded, f.kind = .model → ¬f.KeepsExtension := by
  constructor
  · refine fun hcoherent => ⟨h.lists_iff.mp hcoherent.toLists, fun f hf hkind hkeeps => ?_⟩
    obtain ⟨g, hg, -, hkind', hsame⟩ := hcoherent.stored f hf
    obtain rfl : g = f := hsame (.inr hkind)
    have hne : g.names ≠ [] := by
      have := keys_ne_nil (.inr hkind)
      rwa [SourceFile.keys_of_model hkind] at this
    obtain ⟨name, hname⟩ := List.exists_mem_of_ne_nil _ hne
    have hfound := hcoherent.model_reached g (mem_ofKind.mpr ⟨hg, hkind⟩) name hname
    exact h.model?_ne_of_keepsExtension hkeeps hfound
  · rintro ⟨hkinds, hkeeps⟩
    refine ⟨h.lists_iff.mpr hkinds, fun f hf name hname => ?_⟩
    obtain ⟨hmem, hkind⟩ := mem_ofKind.mp hf
    have hfound : f ∈ recorded := (h.mem_files.mp hmem).mem
    have hbase : WithoutExtensions name name :=
      ⟨⟨0, by simp⟩, mt (SourceFile.extension_suffix_iff hname).mp (hkeeps f hfound hkind)⟩
    exact h.model?_iff.mpr ⟨hfound, hkind, (trimExtension_eq_iff.mpr hbase).symm ▸ hname⟩

/-- A catalog that is discovered finds by name exactly the macro files and the models among the files that were found in
    its directories, and lists the last one under each path. So what it finds and what it lists agree where no two
    directories of different kinds reach the same path, and no model has a lookup path that ends with an extension, and
    only there. -/
theorem discovered_catalog_coherent_iff {paths : SourcePaths} {root : Path} {here : WorkingDirectory}
    (h : discover paths root here = .ok c) :
    let found := foundFiles paths root here
    (∀ name f, c.macro? name = some f ↔ f ∈ found ∧ f.kind = .macroFile ∧ f.name = name) ∧
    (∀ name f, c.model? name = some f ↔ f ∈ found ∧ f.kind = .model ∧
      ∃ base ∈ f.names, WithoutExtensions name base) ∧
    (∀ f, f ∈ c.files ↔ LastOfPath found f) ∧
    (c.Coherent found ↔ (∀ f ∈ found, ∀ g ∈ found, f.path.order g.path = .eq → f.kind = g.kind) ∧
      ∀ f ∈ found, f.kind = .model → ¬f.KeepsExtension) := by
  have hindexes := indexes_discover h
  refine ⟨fun name f => hindexes.macro?_iff, fun name f => ?_, fun f => hindexes.mem_files, hindexes.coherent_iff⟩
  rw [hindexes.model?_iff]
  simp only [← trimExtension_eq_iff]
  simp

/-- A project whose tests stand in a directory of its models, with one file there. -/
def testsInModels (source : String) : WorkingDirectory where
  path := ⟨"/p"⟩
  tree := .directory [("models", .directory [("tests", .directory [("t.sql", .file (some source))])])]

/-- The file is found as a model and as a test, and only the test stays among the files. -/
theorem discover_testsInModels (source : String) :
    let model : SourceFile := ⟨⟨"models/tests/t.sql"⟩, .model, source⟩
    discover { tests := ["models/tests"] } ⟨"/p"⟩ (testsInModels source) =
      .ok ⟨[⟨⟨"models/tests/t.sql"⟩, .test, source⟩], [],
        [("models/tests/t", model), ("tests/t", model), ("t", model)]⟩ := by
  intro model
  have hmacros : Path.join ⟨"/p"⟩ ⟨"macros"⟩ = ⟨"/p/macros"⟩ := by cbv
  have hmodels : Path.join ⟨"/p"⟩ ⟨"models"⟩ = ⟨"/p/models"⟩ := by cbv
  have htests : Path.join ⟨"/p"⟩ ⟨"models/tests"⟩ = ⟨"/p/models/tests"⟩ := by cbv
  have hbelow : Path.join ⟨"/p/models"⟩ ⟨"tests"⟩ = ⟨"/p/models/tests"⟩ := by cbv
  have hends : "/p/models/tests".endsWith '/' = false := by cbv
  have hfile : Path.join ⟨"/p/models/tests"⟩ ⟨"t.sql"⟩ = ⟨"/p/models/tests/t.sql"⟩ := by
    rw [Path.join, if_neg (by decide), hends]
    rfl
  have hin : Path.below? ⟨"/p/macros"⟩ ⟨"/p"⟩ = some ["macros"] := rfl
  have hin' : Path.below? ⟨"/p/models"⟩ ⟨"/p"⟩ = some ["models"] := rfl
  have hin'' : Path.below? ⟨"/p/models/tests"⟩ ⟨"/p"⟩ = some ["models", "tests"] := rfl
  have hfind : (testsInModels source).find ⟨"/p/macros"⟩ = .error .missing := by
    simp only [WorkingDirectory.find, testsInModels, hin]
    rfl
  have hfind' : (testsInModels source).find ⟨"/p/models"⟩ =
      .ok (.directory [("tests", .directory [("t.sql", .file (some source))])]) := by
    simp only [WorkingDirectory.find, testsInModels, hin']
    rfl
  have hfind'' : (testsInModels source).find ⟨"/p/models/tests"⟩ = .ok (.directory [("t.sql", .file (some source))]) := by
    simp only [WorkingDirectory.find, testsInModels, hin'']
    rfl
  have hfound (kind : FileKind) (c : Catalog) : recordFound { tests := ["models/tests"] } ⟨"/p"⟩ kind c
      (⟨"/p/models/tests/t.sql"⟩, some source) = c.record ⟨⟨"models/tests/t.sql"⟩, kind, source⟩ := by
    have hshown : Path.relativeTo ⟨"/p/models/tests/t.sql"⟩ ⟨"/p"⟩ = ⟨"models/tests/t.sql"⟩ := rfl
    have hkept : SourcePaths.excludes { tests := ["models/tests"] }
        (Path.lookupText ⟨"models/tests/t.sql"⟩ ++ ".sql") = false := rfl
    simp only [recordFound, hshown, hkept]
    rfl
  simp only [discover, List.map_cons, List.map_nil, List.cons_append, List.nil_append, List.foldlM_cons,
    List.foldlM_nil, hmacros, hmodels, htests, hfind, hfind', hfind'', FileTree.files, FileTree.entryFiles, List.mergeSort_singleton, hbelow, hfile,
    List.flatMap_cons, List.flatMap_nil, List.append_nil, hfound]
  have hnames : SourceFile.names ⟨⟨"models/tests/t.sql"⟩, .model, source⟩ = ["models/tests/t", "tests/t", "t"] := by
    have hlookup : Path.lookup ⟨"models/tests/t.sql"⟩ = ["models", "tests", "t"] := by decide
    simp only [SourceFile.names, hlookup]
    rfl
  have hsame : Path.order ⟨"models/tests/t.sql"⟩ ⟨"models/tests/t.sql"⟩ = .eq := Std.ReflCmp.compare_self
  simp [record, hnames, insertFile, hsame, register, Table.get?_cons, Table.set, model, pure, Except.pure, bind, Except.bind]

/-- A model that is found by name and not listed: its file is listed as a test. -/
theorem discovered_model_not_listed : ∃ (paths : SourcePaths) (root : Path) (here : WorkingDirectory) (c : Catalog)
    (f g : SourceFile), discover paths root here = .ok c ∧ c.model? "t" = some f ∧ f ∉ c.ofKind .model ∧
      g ∈ c.ofKind .test ∧ g.path = f.path := by
  refine ⟨_, _, _, _, _, _, discover_testsInModels "select 1", rfl, fun hlisted => ?_, List.mem_cons_self, rfl⟩
  cases List.mem_singleton.mp (mem_ofKind.mp hlisted).1

/-- A file that was found as a model, and as a test after that. -/
theorem discovered_catalog_coherent_iff_of_testsInModels :
    let here := testsInModels "select 1"
    let found := foundFiles { tests := ["models/tests"] } ⟨"/p"⟩ here
    (∃ c, discover { tests := ["models/tests"] } ⟨"/p"⟩ here = .ok c) ∧ ∃ f ∈ found, f.kind = .model ∧
      ∃ g, LastOfPath found g ∧ g.kind = .test ∧ g.path = f.path := by
  have hdiscover := discover_testsInModels "select 1"
  obtain ⟨-, hmodels, hfiles, -⟩ := discovered_catalog_coherent_iff hdiscover
  obtain ⟨hf, hkind, -⟩ := (hmodels "t" _).mp rfl
  exact ⟨⟨_, hdiscover⟩, _, hf, hkind, _, (hfiles _).mp List.mem_cons_self, rfl, rfl⟩

end Catalog

end TemplatedSql
