import TemplatedSql.Proofs.Project.Listing

/-! # The templates of a catalog

A template can be imported under a name exactly if the macro file of that name can be parsed: the index of the macro
files has no two entries of one name, so none stands behind a file that cannot be parsed. What is found in a catalog of
given files depends on their components and sources. -/

namespace TemplatedSql

namespace Table
variable {α β : Type} {t : Table α}

/-- No two entries have the same name. -/
def Keyed (t : Table α) : Prop :=
  (t.map Prod.fst).Nodup

theorem map_fst_set (t : Table α) (name : String) (v : α) :
    (t.set name v).map Prod.fst = if name ∈ t.map Prod.fst then t.map Prod.fst else t.map Prod.fst ++ [name] := by
  induction t with
  | nil => rfl
  | cons e t ih =>
    obtain ⟨k, w⟩ := e
    rw [set]
    split
    · next h => simp [h]
    · next h =>
      rw [List.map_cons, List.map_cons, ih]
      split
      · next hmem => rw [if_pos (List.mem_cons_of_mem k hmem)]
      · next hmem => rw [if_neg (by simpa [h] using hmem), List.cons_append]

theorem Keyed.set (h : t.Keyed) (name : String) (v : α) : (t.set name v).Keyed := by
  rw [Keyed, map_fst_set]
  split
  · exact h
  · next hmem => exact List.nodup_append.mpr ⟨h, List.pairwise_singleton _ _, by
      rintro k hk _ hname rfl
      rw [List.mem_singleton.mp hname] at hk
      exact hmem hk⟩

/-- Where no two entries have the same name, an entry that is left out leaves nothing under its name. -/
theorem get?_filterMap (h : t.Keyed) (f : α → Option β) (name : String) :
    get? (t.filterMap fun (k, v) => (f v).map fun w => (k, w)) name = (t.get? name).bind f := by
  induction t with
  | nil => rfl
  | cons e t ih =>
    obtain ⟨k, v⟩ := e
    obtain ⟨hk, ht⟩ := List.nodup_cons.mp h
    have habsent : get? t k = none := by
      refine List.lookup_eq_none_iff.mpr fun e he => bne_iff_ne.mpr ?_
      rintro rfl
      exact hk (List.mem_map.mpr ⟨e, he, rfl⟩)
    rw [get?_cons]
    cases hv : f v with
    | none =>
      simp only [List.filterMap_cons, hv, Option.map_none]
      refine (ih ht).trans ?_
      split
      · next hname => rw [hname, habsent, Option.bind_some, hv, Option.bind_none]
      · rfl
    | some w =>
      simp only [List.filterMap_cons, hv, Option.map_some]
      rw [get?_cons]
      split
      · rw [Option.bind_some, hv]
      · exact ih ht

end Table

namespace Catalog
variable {c d : Catalog} {f : SourceFile}

theorem keyed_register {index index' : Table SourceFile} {name : String} (h : index.Keyed)
    (hok : register f index name = .ok index') : index'.Keyed := by
  rw [register] at hok
  split at hok
  · cases hok
  · cases hok
    exact h.set name f

theorem keyed_record (h : c.macros.Keyed) (hok : c.record f = .ok d) : d.macros.Keyed := by
  rw [record] at hok
  split at hok
  · obtain ⟨index, hindex, hok⟩ := bind_eq_ok_iff.mp hok
    cases hok
    exact keyed_register h hindex
  · obtain ⟨index, -, hok⟩ := bind_eq_ok_iff.mp hok
    cases hok
    exact h
  · cases hok
    exact h
  · cases hok
    exact h

/-- The index of the macro files has one entry for each of them. -/
theorem Built.keyed_macros (h : c.Built) : c.macros.Keyed :=
  h.of_record .nil fun h hok => keyed_record h hok

/-- The library has the template of the macro file of a name, if it can be parsed. -/
theorem Built.library_get? (h : c.Built) (name : String) :
    c.library.get? name = (c.macro? name).bind fun f => f.template.toOption :=
  Table.get?_filterMap h.keyed_macros (fun f : SourceFile => f.template.toOption) name

/-! ### Catalogs of given files -/

variable {files : List (Path × String)} {g : SourceFile}

theorem indexes_ofFiles (h : ofFiles files = .ok c) : c.Indexes (classified files) := by
  rw [ofFiles_eq] at h
  rcases indexes_empty.foldlM_record (classified files) with ⟨d, hd, hindexes⟩ | ⟨_, _, _, _, _, -, -, -, he⟩
  · obtain rfl : d = c := Except.ok.inj (hd.symm.trans h)
    exact hindexes
  · rw [he] at h
    cases h

theorem classify_congr {path path' : Path} (h : path.components = path'.components) : classify path = classify path' := by
  rw [classify, classify, Path.lookup_congr h]

/-- The kind of a given file depends on its components only. -/
theorem kind_eq_of_mem_classified (hf : f ∈ classified files) (hg : g ∈ classified files)
    (h : f.path.order g.path = .eq) : f.kind = g.kind := by
  obtain ⟨file, -, rfl⟩ := List.mem_map.mp hf
  obtain ⟨file', -, rfl⟩ := List.mem_map.mp hg
  exact classify_congr (Path.order_eq_iff.mp h)

theorem lists_ofFiles (h : ofFiles files = .ok c) : c.Lists (classified files) :=
  (indexes_ofFiles h).lists_iff.mpr fun _ hf _ hg => kind_eq_of_mem_classified hf hg

end Catalog

namespace SourceFile
variable {f g : SourceFile}

theorem name_of_template {t : Template} (h : f.template = .ok t) : t.name = f.path.lookupText := by
  rw [template] at h
  split at h
  · cases h
    rfl
  · cases h

/-- Files of the same components and source have the same template, if any. -/
theorem toOption_template_congr (hpath : f.path.order g.path = .eq) (hsource : f.source = g.source) :
    f.template.toOption = g.template.toOption := by
  rw [template, template, hsource, Path.lookupText, Path.lookupText, Path.lookup_congr (Path.order_eq_iff.mp hpath)]
  cases Body.ofSource g.source <;> rfl

end SourceFile

end TemplatedSql
