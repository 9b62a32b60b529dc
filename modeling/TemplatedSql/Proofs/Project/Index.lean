import TemplatedSql.Proofs.Project.Catalog
import TemplatedSql.Proofs.Project.Names

/-! # What a catalog finds under a name

A catalog that is made of files, one after the other, finds under a name the file that goes by it. It can be made where
no two files of a kind go by the same name; otherwise the first file that meets an earlier one is reported, with the
longest name that the two have in common. -/

namespace TemplatedSql

namespace SourceFile

/-- What a file is registered under, in the order of registration. -/
def keys (f : SourceFile) : List String :=
  match f.kind with
  | .macroFile => [f.name]
  | .model => f.names
  | .test | .other => []

theorem keys_of_macroFile {f : SourceFile} (h : f.kind = .macroFile) : f.keys = [f.name] := by
  rw [keys, h]

theorem keys_of_model {f : SourceFile} (h : f.kind = .model) : f.keys = f.names := by
  rw [keys, h]

/-- Two files of a kind cannot both be in a catalog. -/
def Clashes (f g : SourceFile) : Prop :=
  f.kind = g.kind ∧ ∃ name ∈ f.keys, name ∈ g.keys

theorem nodup_keys (f : SourceFile) : f.keys.Nodup := by
  rw [keys]
  split
  · exact List.pairwise_singleton _ _
  · exact f.nodup_names
  · exact .nil
  · exact .nil

end SourceFile

namespace Catalog

/-! ### Registration -/

section
variable {f : SourceFile} {index : Table SourceFile} {names : List String}

/-- A file is registered under names that are free. -/
theorem foldlM_register (hnodup : names.Nodup) (hfree : ∀ name ∈ names, index.get? name = none) :
    ∃ index', names.foldlM (register f) index = .ok index' ∧
      ∀ name, index'.get? name = if name ∈ names then some f else index.get? name := by
  induction names generalizing index with
  | nil => exact ⟨index, rfl, fun name => (if_neg List.not_mem_nil).symm⟩
  | cons n names ih =>
    obtain ⟨hn, hnames⟩ := List.nodup_cons.mp hnodup
    obtain ⟨hfirst, hothers⟩ := List.forall_mem_cons.mp hfree
    have hset : ∀ name ∈ names, (index.set n f).get? name = none := by
      intro name hname
      have hne : name ≠ n := by
        rintro rfl
        exact hn hname
      rw [Table.get?_set, if_neg hne]
      exact hothers name hname
    obtain ⟨index', hfold, hindex⟩ := ih hnames hset
    refine ⟨index', ?_, fun name => ?_⟩
    · rw [List.foldlM_cons, register, hfirst]
      exact hfold
    · rw [hindex, Table.get?_set]
      by_cases hname : name = n
      · simp [hname]
      · simp [hname]

/-- The first name that is taken stops the registration. -/
theorem foldlM_register_error {before after : List String} {name : String} {first : SourceFile}
    (hnodup : (before ++ name :: after).Nodup) (hfree : ∀ n ∈ before, index.get? n = none)
    (htaken : index.get? name = some first) :
    (before ++ name :: after).foldlM (register f) index = .error (.duplicate f.kind name first.path f.path) := by
  obtain ⟨hbefore, -, hapart⟩ := List.nodup_append.mp hnodup
  obtain ⟨index', hfold, hindex⟩ := foldlM_register (f := f) hbefore hfree
  have hname : index'.get? name = some first := by
    rw [hindex, if_neg fun hmem => hapart name hmem name List.mem_cons_self rfl, htaken]
  rw [List.foldlM_append, hfold]
  show (name :: after).foldlM (register f) index' = _
  rw [List.foldlM_cons, register, hname]
  rfl

/-- Either all names are free, or there is a first one that is taken. -/
theorem exists_first_taken (index : Table SourceFile) (names : List String) :
    (∀ name ∈ names, index.get? name = none) ∨ ∃ before name after first, names = before ++ name :: after ∧
      (∀ n ∈ before, index.get? n = none) ∧ index.get? name = some first := by
  induction names with
  | nil => exact .inl (List.forall_mem_nil _)
  | cons n names ih =>
    cases hn : index.get? n with
    | some first => exact .inr ⟨[], n, names, first, rfl, List.forall_mem_nil _, hn⟩
    | none =>
      rcases ih with hfree | ⟨before, name, after, first, rfl, hfree, htaken⟩
      · exact .inl (List.forall_mem_cons.mpr ⟨hn, hfree⟩)
      · exact .inr ⟨n :: before, name, after, first, rfl, List.forall_mem_cons.mpr ⟨hn, hfree⟩, htaken⟩

end

/-! ### Recording -/

/-- The index of the files of a kind. -/
def index (c : Catalog) : FileKind → Table SourceFile
  | .macroFile => c.macros
  | .model => c.models
  | .test | .other => []

variable {c d : Catalog} {f : SourceFile}

/-- Recording a file registers it under its keys in the index of its kind. -/
theorem record_eq (c : Catalog) (f : SourceFile) : c.record f =
    (f.keys.foldlM (register f) (c.index f.kind)).map fun index =>
      { files := insertFile f c.files
        macros := if f.kind = .macroFile then index else c.macros
        models := if f.kind = .model then index else c.models } := by
  rw [record, SourceFile.keys]
  cases hkind : f.kind with
  | macroFile =>
    simp only [Catalog.index, List.foldlM_cons, List.foldlM_nil]
    cases register f c.macros f.name <;> rfl
  | model =>
    simp only [Catalog.index]
    cases f.names.foldlM (register f) c.models <;> rfl
  | test => rfl
  | other => rfl

theorem record_ok (hfree : ∀ name ∈ f.keys, (c.index f.kind).get? name = none) : ∃ d, c.record f = .ok d ∧
    ∀ kind name, (d.index kind).get? name =
      if f.kind = kind ∧ name ∈ f.keys then some f else (c.index kind).get? name := by
  obtain ⟨index', hfold, hindex⟩ := foldlM_register (f := f) f.nodup_keys hfree
  rw [record_eq, hfold]
  refine ⟨_, rfl, fun kind name => ?_⟩
  have hnone : f.kind = .test ∨ f.kind = .other → name ∉ f.keys := by
    rintro (hkind | hkind) <;> simp [SourceFile.keys, hkind]
  cases kind with
  | macroFile =>
    show (if f.kind = .macroFile then index' else c.macros).get? name = _
    by_cases hkind : f.kind = .macroFile
    · rw [if_pos hkind, hindex]
      simp [hkind]
    · simp [hkind, Catalog.index]
  | model =>
    show (if f.kind = .model then index' else c.models).get? name = _
    by_cases hkind : f.kind = .model
    · rw [if_pos hkind, hindex]
      simp [hkind]
    · simp [hkind, Catalog.index]
  | test => exact (if_neg fun h => hnone (.inl h.1) h.2).symm
  | other => exact (if_neg fun h => hnone (.inr h.1) h.2).symm

theorem record_error {before after : List String} {name : String} {first : SourceFile}
    (hkeys : f.keys = before ++ name :: after) (hfree : ∀ n ∈ before, (c.index f.kind).get? n = none)
    (htaken : (c.index f.kind).get? name = some first) :
    c.record f = .error (.duplicate f.kind name first.path f.path) := by
  rw [record_eq, hkeys, foldlM_register_error (hkeys ▸ f.nodup_keys) hfree htaken]
  rfl

/-! ### One file after the other -/

/-- A catalog holds files that were recorded one after the other. -/
structure Indexes (c : Catalog) (recorded : List SourceFile) : Prop where
  get?_iff : ∀ kind name f, (c.index kind).get? name = some f ↔ f ∈ recorded ∧ f.kind = kind ∧ name ∈ f.keys
  apart : recorded.Pairwise fun f g => ¬f.Clashes g
  files_eq : c.files = recorded.foldl (fun files f => insertFile f files) []

/-- A file meets an earlier one under the first of its keys that any earlier file of its kind has. -/
structure Meets (recorded : List SourceFile) (first second : SourceFile) (name : String) : Prop where
  mem : first ∈ recorded
  kind : first.kind = second.kind
  key : name ∈ first.keys
  keys : ∃ before after, second.keys = before ++ name :: after ∧
    ∀ n ∈ before, ∀ g ∈ recorded, g.kind = second.kind → n ∉ g.keys

theorem Meets.clashes {recorded : List SourceFile} {first second : SourceFile} {name : String}
    (h : Meets recorded first second name) : first.Clashes second := by
  obtain ⟨before, after, hkeys, -⟩ := h.keys
  exact ⟨h.kind, name, h.key, by simp [hkeys]⟩

theorem indexes_empty : ({} : Catalog).Indexes [] where
  get?_iff kind name f := by cases kind <;> simp [Catalog.index]
  apart := .nil
  files_eq := rfl

variable {recorded : List SourceFile}

theorem Indexes.get?_eq_none (h : c.Indexes recorded) {kind : FileKind} {name : String} :
    (c.index kind).get? name = none ↔ ∀ g ∈ recorded, g.kind = kind → name ∉ g.keys := by
  rw [Option.eq_none_iff_forall_ne_some]
  constructor
  · intro hnone g hg hkind hname
    exact hnone g ((h.get?_iff kind name g).mpr ⟨hg, hkind, hname⟩)
  · intro hfree g hsome
    obtain ⟨hg, hkind, hname⟩ := (h.get?_iff kind name g).mp hsome
    exact hfree g hg hkind hname

/-- A file is recorded if it clashes with no earlier one, and is reported otherwise. -/
theorem Indexes.record (h : c.Indexes recorded) (f : SourceFile) :
    (∃ d, c.record f = .ok d ∧ d.Indexes (recorded ++ [f])) ∨
      ∃ first name, Meets recorded first f name ∧ c.record f = .error (.duplicate f.kind name first.path f.path) := by
  rcases exists_first_taken (c.index f.kind) f.keys with hfree | ⟨before, name, after, first, hkeys, hfree, htaken⟩
  · obtain ⟨d, hd, hindex⟩ := record_ok hfree
    refine .inl ⟨d, hd, fun kind name g => ?_, ?_, ?_⟩
    · rw [hindex, List.mem_append, List.mem_singleton]
      by_cases hkey : f.kind = kind ∧ name ∈ f.keys
      · rw [if_pos hkey]
        constructor
        · intro heq
          cases heq
          exact ⟨.inr rfl, hkey⟩
        · rintro ⟨hg | rfl, hkind, hname⟩
          · exact absurd hname (h.get?_eq_none.mp (hfree name hkey.2) g hg (hkind.trans hkey.1.symm))
          · rfl
      · rw [if_neg hkey, h.get?_iff]
        constructor
        · exact fun ⟨hg, hg'⟩ => ⟨.inl hg, hg'⟩
        · rintro ⟨hg | rfl, hg'⟩
          · exact ⟨hg, hg'⟩
          · exact absurd hg' hkey
    · refine List.pairwise_append.mpr ⟨h.apart, List.pairwise_singleton _ f, fun g hg f' hf' => ?_⟩
      obtain rfl := List.mem_singleton.mp hf'
      rintro ⟨hkind, name, hname, hname'⟩
      exact h.get?_eq_none.mp (hfree name hname') g hg hkind hname
    · rw [record_files hd, h.files_eq, List.foldl_append]
      rfl
  · obtain ⟨hmem, hkind, hname⟩ := (h.get?_iff _ _ _).mp htaken
    refine .inr ⟨first, name, ⟨hmem, hkind, hname, before, after, hkeys, fun n hn => ?_⟩, record_error hkeys hfree htaken⟩
    exact h.get?_eq_none.mp (hfree n hn)

/-- Files are recorded one after the other up to the first that clashes with an earlier one. -/
theorem Indexes.foldlM_record (h : c.Indexes recorded) (files : List SourceFile) :
    (∃ d, files.foldlM Catalog.record c = .ok d ∧ d.Indexes (recorded ++ files)) ∨
      ∃ before second after first name, files = before ++ second :: after ∧
        (recorded ++ before).Pairwise (fun f g => ¬f.Clashes g) ∧ Meets (recorded ++ before) first second name ∧
        files.foldlM Catalog.record c = .error (.duplicate second.kind name first.path second.path) := by
  induction files generalizing c recorded with
  | nil => exact .inl ⟨c, rfl, by rwa [List.append_nil]⟩
  | cons f files ih =>
    rw [List.foldlM_cons]
    rcases h.record f with ⟨d, hd, hindexes⟩ | ⟨first, name, hmeets, he⟩
    · rw [hd]
      show (∃ d', files.foldlM Catalog.record d = .ok d' ∧ _) ∨ _
      rcases ih hindexes with ⟨d', hd', hindexes'⟩ | ⟨before, second, after, first, name, rfl, hapart, hmeets, he⟩
      · exact .inl ⟨d', hd', by rwa [List.append_assoc] at hindexes'⟩
      · rw [List.append_assoc] at hapart hmeets
        exact .inr ⟨f :: before, second, after, first, name, rfl, hapart, hmeets, he⟩
    · rw [he]
      exact .inr ⟨[], f, files, first, name, rfl, by rw [List.append_nil]; exact h.apart,
        by rw [List.append_nil]; exact hmeets, rfl⟩

end Catalog

/-! ### Given files -/

namespace SourceFile
variable {f g : SourceFile}

/-- Two macro files with the same stem, or two models whose lookup paths end with the same name. -/
def SameName (f g : SourceFile) : Prop :=
  (f.kind = .macroFile ∧ g.kind = .macroFile ∧ f.name = g.name) ∨
    (f.kind = .model ∧ g.kind = .model ∧ f.path.lookup.getLast? = g.path.lookup.getLast?)

/-- A model has a lookup path with names in it. -/
def HasNames (f : SourceFile) : Prop :=
  f.kind = .model → f.path.lookup ≠ []

theorem clashes_iff_sameName (hf : f.HasNames) (hg : g.HasNames) : f.Clashes g ↔ f.SameName g := by
  rw [Clashes, SameName, keys, keys]
  cases hkind : f.kind <;> cases hkind' : g.kind <;> simp only [reduceCtorEq, false_and, and_false, true_and, or_false, false_or]
  · simp
  · exact names_meet_iff (hf hkind) (hg hkind')
  · simp
  · simp

end SourceFile

namespace Catalog

/-- Given files with the kinds that their paths give them. -/
def classified (files : List (Path × String)) : List SourceFile :=
  files.map fun file => ⟨file.1, classify file.1, file.2⟩

theorem ofFiles_eq (files : List (Path × String)) : ofFiles files = (classified files).foldlM Catalog.record {} := by
  rw [ofFiles, classified, List.foldlM_map]

theorem hasNames_of_mem_classified {files : List (Path × String)} {f : SourceFile} (h : f ∈ classified files) :
    f.HasNames := by
  obtain ⟨⟨path, source⟩, -, rfl⟩ := List.mem_map.mp h
  intro hkind hnil
  simp only at hkind hnil
  simp [classify, hnil] at hkind

variable {c : Catalog} {recorded : List SourceFile} {first second : SourceFile} {name : String}

theorem Meets.eq_name (h : Meets recorded first second name) (hkind : second.kind = .macroFile) : name = second.name := by
  obtain ⟨before, after, hkeys, -⟩ := h.keys
  have hmem : name ∈ second.keys := by simp [hkeys]
  rw [SourceFile.keys_of_macroFile hkind] at hmem
  exact List.mem_singleton.mp hmem

/-- The name that a model meets an earlier one under is that of the longest ending that their lookup paths have in
    common. -/
theorem Meets.longest (h : Meets recorded first second name) (hfirst : first.HasNames) (hsecond : second.HasNames)
    (hkind : second.kind = .model) : ∃ parts, parts ≠ [] ∧ parts <:+ first.path.lookup ∧ parts <:+ second.path.lookup ∧
      (∀ common, common <:+ first.path.lookup → common <:+ second.path.lookup → common <:+ parts) ∧
      name = "/".intercalate parts := by
  have hkind' := h.kind.trans hkind
  have hlookup := hfirst hkind'
  have hlookup' := hsecond hkind
  have hkey := h.key
  obtain ⟨before, after, hkeys, hbefore⟩ := h.keys
  rw [SourceFile.keys_of_model hkind'] at hkey
  rw [SourceFile.keys_of_model hkind] at hkeys
  have hmem : name ∈ second.names := by simp [hkeys]
  rw [SourceFile.names_eq hlookup'] at hkeys
  obtain ⟨parts, hne, hsuffix, hname, hlonger⟩ := endingTexts_eq_append hkeys
  obtain ⟨parts', -, hsuffix', hwithin, hname'⟩ := SourceFile.exists_common hlookup hlookup' hkey hmem
  have heq : parts' = parts := intercalate_inj (fun _ hn => Path.isName_of_mem_lookup (hsuffix'.mem hn))
    (fun _ hn => Path.isName_of_mem_lookup (hsuffix.mem hn)) (hname'.trans hname.symm)
  refine ⟨parts, hne, heq ▸ hsuffix', hsuffix, fun common hcommon hcommon' => ?_, hname.symm⟩
  by_contra hnot
  have hcommonne : common ≠ [] := by
    rintro rfl
    exact hnot List.nil_suffix
  -- A longer ending in common would have been met first.
  refine hbefore _ (hlonger common hcommon' hnot) first h.mem h.kind ?_
  rw [SourceFile.keys_of_model hkind', SourceFile.names_eq hlookup]
  exact mem_endingTexts.mpr ⟨common, hcommonne, hcommon, rfl⟩

theorem Indexes.macro?_iff (h : c.Indexes recorded) {f : SourceFile} :
    c.macro? name = some f ↔ f ∈ recorded ∧ f.kind = .macroFile ∧ f.name = name := by
  have hindex := h.get?_iff .macroFile name f
  rw [macro?]
  refine hindex.trans (and_congr_right fun _ => and_congr_right fun hkind => ?_)
  rw [SourceFile.keys_of_macroFile hkind]
  exact List.mem_singleton.trans eq_comm

theorem Indexes.model?_iff (h : c.Indexes recorded) {f : SourceFile} :
    c.model? name = some f ↔ f ∈ recorded ∧ f.kind = .model ∧ trimExtension name ∈ f.names := by
  have hindex := h.get?_iff .model (trimExtension name) f
  rw [model?]
  refine hindex.trans (and_congr_right fun _ => and_congr_right fun hkind => ?_)
  rw [SourceFile.keys_of_model hkind]

theorem pairwise_sameName_iff {files : List SourceFile} (h : ∀ f ∈ files, f.HasNames) :
    (files.Pairwise fun f g => ¬f.Clashes g) ↔ files.Pairwise fun f g => ¬f.SameName g :=
  List.Pairwise.iff_of_mem fun hf hg => not_congr (SourceFile.clashes_iff_sameName (h _ hf) (h _ hg))

/-- The index of a catalog is exact. A catalog can be made of given files where no two macro files have the same stem and
    no two models the same last name in their lookup paths. Then it finds a model under a name where the name without
    its extensions is an ending of the model's lookup path, and a macro file under its stem. Otherwise the first file
    that clashes with an earlier one is reported with that one, under their stem or the longest ending that their lookup
    paths have in common. -/
theorem catalog_index_is_exact (files : List (Path × String)) :
    ((∃ c, ofFiles files = .ok c) ↔ (classified files).Pairwise fun f g => ¬f.SameName g) ∧
    (∀ c, ofFiles files = .ok c →
      (∀ name f, c.model? name = some f ↔ f ∈ classified files ∧ f.kind = .model ∧
        ∃ parts, parts ≠ [] ∧ parts <:+ f.path.lookup ∧ WithoutExtensions name ("/".intercalate parts)) ∧
      ∀ name f, c.macro? name = some f ↔ f ∈ classified files ∧ f.kind = .macroFile ∧ f.name = name) ∧
    ∀ e, ofFiles files = .error e → ∃ before second after first name,
      classified files = before ++ second :: after ∧ before.Pairwise (fun f g => ¬f.SameName g) ∧
      first ∈ before ∧ first.SameName second ∧ e = .duplicate second.kind name first.path second.path ∧
      (second.kind = .macroFile → name = second.name) ∧
      (second.kind = .model → ∃ parts, parts ≠ [] ∧ parts <:+ first.path.lookup ∧ parts <:+ second.path.lookup ∧
        (∀ common, common <:+ first.path.lookup → common <:+ second.path.lookup → common <:+ parts) ∧
        name = "/".intercalate parts) := by
  have hnames : ∀ f ∈ classified files, f.HasNames := fun f => hasNames_of_mem_classified
  rw [ofFiles_eq]
  rcases indexes_empty.foldlM_record (classified files) with
    ⟨c, hc, hindexes⟩ | ⟨before, second, after, first, name, hsplit, hapart, hmeets, he⟩
  · rw [List.nil_append] at hindexes
    refine ⟨⟨fun _ => (pairwise_sameName_iff hnames).mp hindexes.apart, fun _ => ⟨c, hc⟩⟩, fun d hd => ?_, fun e he => ?_⟩
    · obtain rfl : c = d := Except.ok.inj (hc.symm.trans hd)
      refine ⟨fun name f => ?_, fun name f => hindexes.macro?_iff⟩
      rw [hindexes.model?_iff]
      refine and_congr_right fun hf => and_congr_right fun hkind => ?_
      rw [SourceFile.names_eq (hnames f hf hkind), mem_endingTexts]
      simp only [← trimExtension_eq_iff, eq_comm]
    · rw [hc] at he
      cases he
  · rw [List.nil_append] at hapart hmeets
    have hfirst : first.HasNames := hnames first (by simp [hsplit, hmeets.mem])
    have hsecond : second.HasNames := hnames second (by simp [hsplit])
    have hclash : first.SameName second := (SourceFile.clashes_iff_sameName hfirst hsecond).mp hmeets.clashes
    refine ⟨⟨fun ⟨c, hc⟩ => ?_, fun h => ?_⟩, fun c hc => ?_, fun e' he' => ?_⟩
    · rw [hc] at he
      cases he
    · rw [hsplit] at h
      exact absurd hclash ((List.pairwise_append.mp h).2.2 first hmeets.mem second List.mem_cons_self)
    · rw [hc] at he
      cases he
    · obtain rfl := Except.error.inj (he'.symm.trans he)
      have hbefore : ∀ f ∈ before, f.HasNames := fun f hf => hnames f (by simp [hsplit, hf])
      exact ⟨before, second, after, first, name, hsplit, (pairwise_sameName_iff hbefore).mp hapart, hmeets.mem, hclash,
        rfl, hmeets.eq_name, hmeets.longest hfirst hsecond⟩

/-- A model that is found beside a macro file of the same stem, and two models that cannot both be there. -/
theorem catalog_index_is_exact_of_orders :
    (∃ c, ofFiles [(⟨"models/staging/orders.sql"⟩, "a"), (⟨"macros/orders.sql"⟩, "b")] = .ok c ∧
      c.model? "staging/orders.sql" = some ⟨⟨"models/staging/orders.sql"⟩, .model, "a"⟩) ∧
    ∃ e, ofFiles [(⟨"models/staging/orders.sql"⟩, "a"), (⟨"models/orders.sql"⟩, "b")] = .error e ∧
      ∃ before second after first name,
        classified [(⟨"models/staging/orders.sql"⟩, "a"), (⟨"models/orders.sql"⟩, "b")] = before ++ second :: after ∧
        first ∈ before ∧ first.SameName second ∧ e = .duplicate second.kind name first.path second.path := by
  constructor
  · obtain ⟨-, hfound, -⟩ :=
      catalog_index_is_exact [(⟨"models/staging/orders.sql"⟩, "a"), (⟨"macros/orders.sql"⟩, "b")]
    have hmem : ⟨⟨"models/staging/orders.sql"⟩, .model, "a"⟩ ∈
        classified [(⟨"models/staging/orders.sql"⟩, "a"), (⟨"macros/orders.sql"⟩, "b")] :=
      List.mem_map.mpr ⟨_, List.mem_cons_self, rfl⟩
    have hparts : ["staging", "orders"] <:+ Path.lookup ⟨"models/staging/orders.sql"⟩ := ⟨["models"], by decide⟩
    have hname : WithoutExtensions "staging/orders.sql" ("/".intercalate ["staging", "orders"]) :=
      ⟨⟨1, by decide⟩, by decide⟩
    exact ⟨_, rfl, ((hfound _ rfl).1 _ _).mpr ⟨hmem, rfl, _, List.cons_ne_nil _ _, hparts, hname⟩⟩
  · obtain ⟨-, -, hclash⟩ :=
      catalog_index_is_exact [(⟨"models/staging/orders.sql"⟩, "a"), (⟨"models/orders.sql"⟩, "b")]
    have he : ofFiles [(⟨"models/staging/orders.sql"⟩, "a"), (⟨"models/orders.sql"⟩, "b")] = .error
        (.duplicate .model "orders" ⟨"models/staging/orders.sql"⟩ ⟨"models/orders.sql"⟩) := rfl
    obtain ⟨before, second, after, first, name, hsplit, -, hfirst, hsame, heq, -⟩ := hclash _ he
    exact ⟨_, he, before, second, after, first, name, hsplit, hfirst, hsame, heq⟩

end Catalog

end TemplatedSql
