import Mathlib.Order.Defs.LinearOrder
import TemplatedSql.Catalog
import TemplatedSql.Proofs.Except
import TemplatedSql.Project.Compile

/-!
# Catalogs in order

Paths are ordered by their components, so that the files of a catalog, and those of a compiled project, stand
in one order, each path once.
-/

namespace TemplatedSql

/-! ## The order of paths -/

theorem Component.order_eq :
    order = compareLex (compareOn rank) (compareOn fun c => c.name?.getD "") := by
  funext a b
  cases a <;> cases b <;> rfl

instance Component.transCmp : Std.TransCmp Component.order :=
  order_eq ▸ inferInstance

instance Path.transCmp : Std.TransCmp Path.order where
  eq_swap {p q} := @Std.OrientedCmp.eq_swap _ (List.compareLex Component.order) _ p.components q.components
  isLE_trans {p q r} :=
    @Std.TransCmp.isLE_trans _ (List.compareLex Component.order) _ p.components q.components r.components

/-! ## Insertion -/

section
variable {α : Type} (key : α → Path) (replace : α → α → α)

/-- What has a path comes before what has another. -/
def InOrder (as : List α) : Prop :=
  as.Pairwise fun a b => (key a).order (key b) = .lt

/-- The items with one more in the order of their paths, where `replace` gives what becomes of an item that has
the path already. -/
def insertAt (a : α) : List α → List α
  | [] => [a]
  | b :: bs =>
    match (key a).order (key b) with
    | .lt => a :: b :: bs
    | .eq => replace a b :: bs
    | .gt => b :: insertAt a bs

variable {key replace}

theorem mem_of_mem_insertAt {a b : α} {bs : List α} (h : b ∈ insertAt key replace a bs) :
    b = a ∨ (∃ c ∈ bs, (key a).order (key c) = .eq ∧ b = replace a c) ∨ b ∈ bs := by
  induction bs with
  | nil => exact .inl (List.mem_singleton.mp h)
  | cons c bs ih =>
    rw [insertAt] at h
    split at h
    · exact (List.mem_cons.mp h).imp_right .inr
    · next heq =>
      rcases List.mem_cons.mp h with h | h
      · exact .inr (.inl ⟨c, List.mem_cons_self, heq, h⟩)
      · exact .inr (.inr (List.mem_cons_of_mem c h))
    · rcases List.mem_cons.mp h with rfl | h
      · exact .inr (.inr List.mem_cons_self)
      · rcases ih h with h | ⟨d, hd, h⟩ | h
        · exact .inl h
        · exact .inr (.inl ⟨d, List.mem_cons_of_mem c hd, h⟩)
        · exact .inr (.inr (List.mem_cons_of_mem c h))

/-- Insertion keeps the order, whichever of two items with the same path stays. -/
theorem InOrder.insertAt (hreplace : ∀ a b, key (replace a b) = key a ∨ key (replace a b) = key b) {a : α}
    {bs : List α} (h : InOrder key bs) : InOrder key (insertAt key replace a bs) := by
  induction bs with
  | nil => exact List.pairwise_singleton _ a
  | cons b bs ih =>
    obtain ⟨hb, hbs⟩ := List.pairwise_cons.mp h
    rw [TemplatedSql.insertAt]
    split
    · next hlt =>
      refine List.pairwise_cons.mpr ⟨fun c hc => ?_, h⟩
      rcases List.mem_cons.mp hc with rfl | hc
      · exact hlt
      · exact Std.TransCmp.lt_trans hlt (hb c hc)
    · next heq =>
      refine List.pairwise_cons.mpr ⟨fun c hc => ?_, hbs⟩
      rcases hreplace a b with hk | hk
      · rw [hk]
        exact Std.TransCmp.lt_of_eq_of_lt heq (hb c hc)
      · rw [hk]
        exact hb c hc
    · next hgt =>
      refine List.pairwise_cons.mpr ⟨fun c hc => ?_, ih hbs⟩
      have hlt : (key b).order (key a) = .lt := Std.OrientedCmp.gt_iff_lt.mp hgt
      rcases mem_of_mem_insertAt hc with rfl | ⟨d, hd, -, rfl⟩ | hc
      · exact hlt
      · rcases hreplace a d with hk | hk
        · rw [hk]
          exact hlt
        · rw [hk]
          exact hb d hd
      · exact hb c hc

/-- What has a path of its own is added. -/
theorem perm_insertAt {a : α} {bs : List α} (h : ∀ b ∈ bs, (key a).order (key b) ≠ .eq) :
    (insertAt key replace a bs).Perm (a :: bs) := by
  induction bs with
  | nil => exact .refl _
  | cons b bs ih =>
    rw [insertAt]
    split
    · exact .refl _
    · next heq => exact absurd heq (h b List.mem_cons_self)
    · exact ((ih fun c hc => h c (List.mem_cons_of_mem b hc)).cons b).trans (.swap a b bs)

end

theorem Catalog.insertFile_eq (f : SourceFile) (files : List SourceFile) :
    insertFile f files = insertAt SourceFile.path (fun new _ => new) f files := by
  induction files with
  | nil => rfl
  | cons g files ih =>
    rw [insertFile, insertAt]
    cases f.path.order g.path with
    | lt => rfl
    | eq => rfl
    | gt => exact congrArg (g :: ·) ih

theorem CompiledProject.insertFile_eq (path : Path) (sql : String) (files : List (Path × String)) :
    insertFile path sql files = insertAt Prod.fst (fun new old => (old.1, new.2)) (path, sql) files := by
  induction files with
  | nil => rfl
  | cons g files ih =>
    rw [insertFile, insertAt]
    cases path.order g.1 with
    | lt => rfl
    | eq => rfl
    | gt => exact congrArg (g :: ·) ih

/-! ## The files of a catalog -/

namespace Catalog

variable {c d : Catalog} {f : SourceFile}

/-- What recording a file does to the files, whatever its kind is. -/
theorem record_files (h : c.record f = .ok d) : d.files = insertFile f c.files := by
  rw [record] at h
  split at h
  · obtain ⟨_, -, h⟩ := bind_eq_ok_iff.mp h
    cases h
    rfl
  · obtain ⟨_, -, h⟩ := bind_eq_ok_iff.mp h
    cases h
    rfl
  · cases h
    rfl
  · cases h
    rfl

theorem inOrder_record (hc : InOrder SourceFile.path c.files) (h : c.record f = .ok d) :
    InOrder SourceFile.path d.files := by
  rw [record_files h, insertFile_eq]
  exact hc.insertAt fun _ _ => .inl rfl

/-- The catalogs that a project can have: of given files, or of those in its directories. -/
inductive Built : Catalog → Prop
  | ofFiles {c : Catalog} (files : List (Path × String)) : ofFiles files = .ok c → Built c
  | discover {c : Catalog} (paths : SourcePaths) (root : Path) (here : WorkingDirectory) :
      discover paths root here = .ok c → Built c

/-- What the empty catalog has and recording a file keeps, every catalog of a project has. -/
theorem Built.of_record {P : Catalog → Prop} (h : c.Built) (hempty : P {})
    (hrecord : ∀ {c d f}, P c → c.record f = .ok d → P d) : P c := by
  cases h with
  | ofFiles files h => exact foldlM_preserves hempty (fun _ _ _ _ hc h => hrecord hc h) h
  | discover paths root here h =>
    refine foldlM_preserves hempty (fun c found _ d hc h => ?_) h
    cases ht : here.find (root.join ⟨found.2⟩) with
    | error e =>
      simp only [ht] at h
      cases h
      exact hc
    | ok t =>
      simp only [ht] at h
      refine foldlM_preserves hc (fun c found _ d hc h => ?_) h
      simp only [recordFound] at h
      split at h
      · cases h
        exact hc
      · split at h
        · exact hrecord hc h
        · cases h

theorem Built.inOrder (h : c.Built) : InOrder SourceFile.path c.files :=
  h.of_record .nil fun hc h => inOrder_record hc h

end Catalog

end TemplatedSql
