import Mathlib.Data.List.Infix
import TemplatedSql.Catalog

/-! # The names that files go by

A file is looked up by names without slashes, so the texts that a model goes by, with slashes between names, are as
different as the endings of its lookup path. Two models have a text in common where they have the same last name, and
the longest such text is that of the longest ending in common. -/

namespace TemplatedSql

/-! ### Names in a path -/

theorem Text.not_mem_of_mem_splitFrom {c : Char} {cs part piece : List Char} (hpart : c ∉ part)
    (h : piece ∈ Text.splitFrom [c] 0 part cs) : c ∉ piece := by
  induction cs generalizing part with
  | nil =>
    obtain rfl := List.mem_singleton.mp h
    rwa [List.mem_reverse]
  | cons d cs ih =>
    rw [Text.splitFrom] at h
    split at h
    · rcases List.mem_cons.mp h with rfl | h
      · rwa [List.mem_reverse]
      · exact ih (List.not_mem_nil) h
    · rename_i hd
      refine ih (fun hmem => ?_) h
      rcases List.mem_cons.mp hmem with rfl | hmem
      · exact hd (by simp)
      · exact hpart hmem

namespace Path

/-- A text that can stand between the slashes of a path. -/
structure IsName (text : String) : Prop where
  ne_nil : text.toList ≠ []
  slash : '/' ∉ text.toList

theorem isName_of_mem_components {p : Path} {text : String} (h : .name text ∈ p.components) : IsName text := by
  rw [components] at h
  have hpiece : ∃ piece ∈ p.pieces, component? piece = some (.name text) := by
    rcases List.mem_append.mp h with h | h
    · split at h
      · simp at h
      · split at h
        · simp at h
        · cases h
    · exact List.mem_filterMap.mp h
  obtain ⟨piece, hmem, hpiece⟩ := hpiece
  rw [component?] at hpiece
  split at hpiece
  · cases hpiece
  · rename_i hvoid
    split at hpiece
    · cases hpiece
    · cases hpiece
      obtain ⟨cs, hcs, rfl⟩ := List.mem_map.mp hmem
      constructor
      · intro hnil
        rw [isVoid] at hvoid
        exact hvoid (by simp_all)
      · rw [String.toList_ofList]
        exact Text.not_mem_of_mem_splitFrom List.not_mem_nil hcs

theorem isName_splitExtension {text : String} (h : IsName text) : IsName (splitExtension text).1 := by
  rw [splitExtension]
  split
  · exact h
  · rename_i hstem
    constructor
    · intro hnil
      rw [String.toList_ofList] at hnil
      rw [hnil] at hstem
      exact hstem rfl
    · rw [String.toList_ofList]
      exact fun hmem => h.slash (List.mem_of_mem_take hmem)

theorem mem_components_of_fileName? {p : Path} {text : String} (h : p.fileName? = some text) :
    .name text ∈ p.components := by
  obtain ⟨c, hc, hname⟩ := Option.bind_eq_some_iff.mp h
  cases c with
  | name text' =>
    cases hname
    exact List.mem_of_getLast? hc
  | _ => cases hname

theorem isName_of_mem_lookup {p : Path} {text : String} (h : text ∈ p.lookup) : IsName text := by
  have hnames : ∀ text ∈ p.components.filterMap Component.name?, IsName text := by
    intro text h
    obtain ⟨c, hc, hname⟩ := List.mem_filterMap.mp h
    cases c with
    | name text' =>
      cases hname
      exact isName_of_mem_components hc
    | _ => cases hname
  rw [lookup] at h
  split at h
  · rename_i hfile
    rcases List.mem_append.mp h with h | h
    · exact hnames text (List.mem_of_mem_dropLast h)
    · obtain ⟨name, hname⟩ := Option.isSome_iff_exists.mp hfile
      obtain rfl := List.mem_singleton.mp (List.mem_of_mem_filter h)
      rw [stem, hname]
      exact isName_splitExtension (isName_of_mem_components (mem_components_of_fileName? hname))
  · exact hnames text h

end Path

/-! ### Texts of names -/

/-- Names can be read off the text that they have with slashes between them. -/
theorem splitOn_intercalate_names {names : List String} (hne : names ≠ []) (h : ∀ n ∈ names, Path.IsName n) :
    ("/".intercalate names).toList.splitOn '/' = names.map String.toList := by
  have hslash : ∀ cs ∈ names.map String.toList, '/' ∉ cs := by
    intro cs hcs
    obtain ⟨n, hn, rfl⟩ := List.mem_map.mp hcs
    exact (h n hn).slash
  rw [String.toList_intercalate]
  exact List.splitOn_intercalate '/' hslash (mt List.map_eq_nil_iff.mp hne)

theorem intercalate_ne_empty {names : List String} (hne : names ≠ []) (h : ∀ n ∈ names, Path.IsName n) :
    "/".intercalate names ≠ "" := by
  intro hempty
  have hsplit := splitOn_intercalate_names hne h
  rw [hempty] at hsplit
  obtain ⟨n, rest, rfl⟩ := List.exists_cons_of_ne_nil hne
  exact (h n List.mem_cons_self).ne_nil (List.cons.inj hsplit).1.symm

theorem intercalate_inj {names names' : List String} (h : ∀ n ∈ names, Path.IsName n) (h' : ∀ n ∈ names', Path.IsName n)
    (heq : "/".intercalate names = "/".intercalate names') : names = names' := by
  by_cases hne : names = []
  · by_cases hne' : names' = []
    · rw [hne, hne']
    · rw [hne] at heq
      exact absurd heq.symm (intercalate_ne_empty hne' h')
  · by_cases hne' : names' = []
    · rw [hne'] at heq
      exact absurd heq (intercalate_ne_empty hne h)
    · have hsplit := splitOn_intercalate_names hne h
      rw [heq, splitOn_intercalate_names hne' h'] at hsplit
      exact (List.map_injective_iff.mpr (fun _ _ => String.toList_inj.mp) hsplit).symm

/-! ### The texts that a model goes by -/

/-- The texts of the endings of names, the longest one first. -/
def endingTexts : List String → List String
  | [] => []
  | n :: names => "/".intercalate (n :: names) :: endingTexts names

theorem map_range_drop (names : List String) :
    ((List.range names.length).map fun i => "/".intercalate (names.drop i)) = endingTexts names := by
  induction names with
  | nil => rfl
  | cons n names ih =>
    rw [List.length_cons, List.range_succ_eq_map, List.map_cons, List.map_map, endingTexts, ← ih]
    rfl

theorem mem_endingTexts {names : List String} {text : String} :
    text ∈ endingTexts names ↔ ∃ parts, parts ≠ [] ∧ parts <:+ names ∧ "/".intercalate parts = text := by
  induction names with
  | nil =>
    constructor
    · intro h
      cases h
    · rintro ⟨parts, hne, hsuffix, -⟩
      exact absurd (List.suffix_nil.mp hsuffix) hne
  | cons n names ih =>
    rw [endingTexts, List.mem_cons, ih]
    constructor
    · rintro (rfl | ⟨parts, hne, hsuffix, htext⟩)
      · exact ⟨n :: names, List.cons_ne_nil n names, List.suffix_rfl, rfl⟩
      · exact ⟨parts, hne, hsuffix.trans (List.suffix_cons n names), htext⟩
    · rintro ⟨parts, hne, hsuffix, htext⟩
      rcases List.suffix_cons_iff.mp hsuffix with rfl | hsuffix
      · exact .inl htext.symm
      · exact .inr ⟨parts, hne, hsuffix, htext⟩

theorem nodup_endingTexts {names : List String} (h : ∀ n ∈ names, Path.IsName n) : (endingTexts names).Nodup := by
  induction names with
  | nil => exact .nil
  | cons n names ih =>
    refine List.nodup_cons.mpr ⟨fun hmem => ?_, ih fun m hm => h m (List.mem_cons_of_mem n hm)⟩
    obtain ⟨parts, -, hsuffix, htext⟩ := mem_endingTexts.mp hmem
    have hparts : ∀ m ∈ parts, Path.IsName m := fun m hm => h m (List.mem_cons_of_mem n (hsuffix.mem hm))
    rw [intercalate_inj hparts h htext] at hsuffix
    exact absurd hsuffix.length_le (by simp)

/-- Before the text of an ending stand those of all endings that are longer. -/
theorem endingTexts_eq_append {names before after : List String} {text : String}
    (h : endingTexts names = before ++ text :: after) : ∃ parts, parts ≠ [] ∧ parts <:+ names ∧
      "/".intercalate parts = text ∧ ∀ longer, longer <:+ names → ¬longer <:+ parts → "/".intercalate longer ∈ before := by
  induction names generalizing before with
  | nil => simp [endingTexts] at h
  | cons n names ih =>
    rw [endingTexts] at h
    rcases List.cons_eq_append_iff.mp h with ⟨rfl, htext⟩ | ⟨before, rfl, hbefore⟩
    · cases htext
      exact ⟨n :: names, List.cons_ne_nil n names, List.suffix_rfl, rfl, fun longer hwithin hlonger => absurd hwithin hlonger⟩
    · obtain ⟨parts, hne, hsuffix, htext, hlonger⟩ := ih hbefore
      refine ⟨parts, hne, hsuffix.trans (List.suffix_cons n names), htext, fun longer hwithin hnot => ?_⟩
      rcases List.suffix_cons_iff.mp hwithin with rfl | hwithin
      · exact List.mem_cons_self
      · exact List.mem_cons_of_mem _ (hlonger longer hwithin hnot)

namespace SourceFile
variable {f g : SourceFile}

theorem names_eq (h : f.path.lookup ≠ []) : f.names = endingTexts f.path.lookup := by
  rw [names]
  split
  · exact absurd ‹_› h
  · exact map_range_drop _

theorem nodup_names (f : SourceFile) : f.names.Nodup := by
  by_cases h : f.path.lookup = []
  · rw [names, h]
    exact List.pairwise_singleton _ ""
  · rw [names_eq h]
    exact nodup_endingTexts fun _ => Path.isName_of_mem_lookup

/-- A text that two models go by is that of an ending of both lookup paths. -/
theorem exists_common (hf : f.path.lookup ≠ []) (hg : g.path.lookup ≠ []) {text : String} (h : text ∈ f.names)
    (h' : text ∈ g.names) : ∃ parts, parts ≠ [] ∧ parts <:+ f.path.lookup ∧ parts <:+ g.path.lookup ∧
      "/".intercalate parts = text := by
  rw [names_eq hf] at h
  rw [names_eq hg] at h'
  obtain ⟨parts, hne, hsuffix, htext⟩ := mem_endingTexts.mp h
  obtain ⟨parts', -, hsuffix', htext'⟩ := mem_endingTexts.mp h'
  have heq : parts = parts' := intercalate_inj (fun _ hn => Path.isName_of_mem_lookup (hsuffix.mem hn))
    (fun _ hn => Path.isName_of_mem_lookup (hsuffix'.mem hn)) (htext.trans htext'.symm)
  exact ⟨parts, hne, hsuffix, heq ▸ hsuffix', htext⟩

/-- Two models go by the same text where the last names in their lookup paths are the same. -/
theorem names_meet_iff (hf : f.path.lookup ≠ []) (hg : g.path.lookup ≠ []) :
    (∃ text ∈ f.names, text ∈ g.names) ↔ f.path.lookup.getLast? = g.path.lookup.getLast? := by
  constructor
  · rintro ⟨text, h, h'⟩
    obtain ⟨parts, hne, ⟨before, hbefore⟩, ⟨before', hbefore'⟩, -⟩ := exists_common hf hg h h'
    rw [← hbefore, ← hbefore', List.getLast?_append_of_ne_nil _ hne, List.getLast?_append_of_ne_nil _ hne]
  · intro h
    obtain ⟨before, hbefore⟩ := List.getLast?_eq_some_iff.mp (List.getLast?_eq_some_getLast hf)
    obtain ⟨before', hbefore'⟩ := List.getLast?_eq_some_iff.mp (h ▸ List.getLast?_eq_some_getLast hf)
    rw [names_eq hf, names_eq hg]
    exact ⟨_, mem_endingTexts.mpr ⟨[f.path.lookup.getLast hf], List.cons_ne_nil _ _, ⟨before, hbefore.symm⟩, rfl⟩,
      mem_endingTexts.mpr ⟨_, List.cons_ne_nil _ _, ⟨before', hbefore'.symm⟩, rfl⟩⟩

end SourceFile

/-! ### Extensions in a name -/

/-- What is left of a name without the extensions at its end. -/
def WithoutExtensions (name base : String) : Prop :=
  (∃ n, name.toList = base.toList ++ (List.replicate n ".sql".toList).flatten) ∧ ¬".sql".toList <:+ base.toList

/-- The lookup path of a file still ends with an extension. -/
def SourceFile.KeepsExtension (f : SourceFile) : Prop :=
  ".sql".toList <:+ f.path.lookupText.toList

/-- An extension has no slash, so it ends the text of some names where it ends that of an ending of them. -/
theorem extension_suffix_intercalate_iff {names parts : List String} (hne : parts ≠ []) (hsuffix : parts <:+ names) :
    ".sql".toList <:+ ("/".intercalate parts).toList ↔ ".sql".toList <:+ ("/".intercalate names).toList := by
  obtain ⟨before, rfl⟩ := hsuffix
  induction before with
  | nil => rfl
  | cons n before ih =>
    have hcons : ("/".intercalate (n :: (before ++ parts))).toList =
        n.toList ++ '/' :: ("/".intercalate (before ++ parts)).toList := by
      obtain ⟨m, names, hnames⟩ := List.exists_cons_of_ne_nil (List.append_ne_nil_of_right_ne_nil before hne)
      rw [hnames]
      simp [String.toList_intercalate]
    rw [ih, List.cons_append, hcons]
    refine ⟨fun h => h.trans ((List.suffix_cons _ _).trans (List.suffix_append _ _)), fun h => ?_⟩
    rcases List.suffix_or_suffix_of_suffix h (List.suffix_append n.toList _) with hwithin | hwithin
    · rcases List.suffix_cons_iff.mp hwithin with heq | hwithin
      · exact absurd heq (by simp)
      · exact hwithin
    · exact absurd (hwithin.mem List.mem_cons_self) (by decide)

/-- The names that a model goes by end with an extension just where its lookup path does. -/
theorem SourceFile.extension_suffix_iff {f : SourceFile} {name : String} (h : name ∈ f.names) :
    ".sql".toList <:+ name.toList ↔ f.KeepsExtension := by
  by_cases hlookup : f.path.lookup = []
  · rw [names, hlookup] at h
    rw [List.mem_singleton.mp h, KeepsExtension, Path.lookupText, hlookup]
    rfl
  · rw [names_eq hlookup] at h
    obtain ⟨parts, hne, hsuffix, rfl⟩ := mem_endingTexts.mp h
    exact extension_suffix_intercalate_iff hne hsuffix

namespace Catalog

theorem trimExtension_go (cs : List Char) : ∃ n,
    cs = (List.replicate n ".sql".toList.reverse).flatten ++ trimExtension.go cs ∧
      ¬".sql".toList.reverse <+: trimExtension.go cs := by
  fun_induction trimExtension.go cs with
  | case1 cs ih =>
    obtain ⟨n, hcs, hnot⟩ := ih
    refine ⟨n + 1, ?_, hnot⟩
    rw [List.replicate_succ, List.flatten_cons, List.append_assoc, ← hcs]
    rfl
  | case2 cs hnone =>
    refine ⟨0, rfl, fun ⟨rest, hrest⟩ => ?_⟩
    exact hnone rest hrest.symm

theorem trimExtension_go_replicate (n : Nat) {cs : List Char} (h : ¬".sql".toList.reverse <+: cs) :
    trimExtension.go ((List.replicate n ".sql".toList.reverse).flatten ++ cs) = cs := by
  induction n with
  | zero =>
    rw [List.replicate_zero, List.flatten_nil, List.nil_append]
    unfold trimExtension.go
    split
    · rename_i rest
      exact absurd ⟨rest, rfl⟩ h
    · rfl
  | succ n ih =>
    rw [List.replicate_succ, List.flatten_cons, List.append_assoc]
    exact ih

/-- All extensions at the end of a name are trimmed, and nothing else. -/
theorem trimExtension_eq_iff {name base : String} : trimExtension name = base ↔ WithoutExtensions name base := by
  have hreverse : ∀ n, (List.replicate n ".sql".toList).flatten.reverse =
      (List.replicate n ".sql".toList.reverse).flatten := by simp [List.reverse_flatten]
  constructor
  · rintro rfl
    obtain ⟨n, hcs, hnot⟩ := trimExtension_go name.toList.reverse
    rw [trimExtension, WithoutExtensions, String.toList_ofList]
    refine ⟨⟨n, ?_⟩, fun hsuffix => hnot ?_⟩
    · rw [← List.reverse_inj, List.reverse_append, List.reverse_reverse, hreverse]
      exact hcs
    · rw [← List.reverse_prefix, List.reverse_reverse] at hsuffix
      exact hsuffix
  · rintro ⟨⟨n, hname⟩, hnot⟩
    rw [trimExtension, hname, List.reverse_append, hreverse, trimExtension_go_replicate, List.reverse_reverse,
      String.ofList_toList]
    rwa [List.reverse_prefix]

end Catalog

end TemplatedSql
