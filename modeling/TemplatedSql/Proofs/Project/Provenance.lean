import TemplatedSql.Proofs.Project.Reformatting
import TemplatedSql.Proofs.Provenance.Names

/-! # The functions in the values of a project

What a configuration says holds no functions. The functions of a project give strings, values of the configuration and
arguments, so they bring no functions in, and the templates of a project see them by the names that they were made
with. -/

namespace TemplatedSql

/-! ### Values from a configuration -/

namespace Value
variable {known : Known}

theorem insertEntry_among {key : String} {v : Value} (hv : v.Among known) {es : List (String × Value)}
    (hes : ∀ e ∈ es, e.2.Among known) : ∀ e ∈ insertEntry key v es, e.2.Among known := by
  induction es with
  | nil => exact List.forall_mem_singleton.mpr hv
  | cons e es ih =>
    have hcons := List.forall_mem_cons.mp hes
    rw [insertEntry]
    split
    · exact List.forall_mem_cons.mpr ⟨hv, hes⟩
    · split
      · exact List.forall_mem_cons.mpr ⟨hv, hcons.2⟩
      · exact List.forall_mem_cons.mpr ⟨hcons.1, ih hcons.2⟩

theorem ofEntries_among {es : List (String × Value)} (hes : ∀ e ∈ es, e.2.Among known) : (ofEntries es).Among known := by
  have hfold : ∀ {es done : List (String × Value)}, (∀ e ∈ es, e.2.Among known) → (∀ e ∈ done, e.2.Among known) →
      ∀ e ∈ es.foldl (fun es e => insertEntry e.1 e.2 es) done, e.2.Among known := by
    intro es done hes hdone
    induction es generalizing done with
    | nil => exact hdone
    | cons e es ih =>
      rw [List.forall_mem_cons] at hes
      exact ih hes.2 (insertEntry_among hes.1 hdone)
  exact among_mapping.mpr (hfold hes (List.forall_mem_nil _))

mutual

theorem ofToml_among : ∀ v : Toml.Value, (ofToml v).Among known
  | .string _ | .integer _ | .float _ | .boolean _ | .datetime _ => by
    simp [ofToml]
  | .array items => by
    rw [ofToml, among_list]
    exact ofTomlItems_among items
  | .table entries => by
    rw [ofToml]
    exact ofEntries_among (ofTomlEntries_among entries)

theorem ofTomlItems_among : ∀ vs : List Toml.Value, ∀ v ∈ ofTomlItems vs, v.Among known
  | [] => by
    rw [ofTomlItems]
    exact List.forall_mem_nil _
  | v :: vs => by
    rw [ofTomlItems, List.forall_mem_cons]
    exact ⟨ofToml_among v, ofTomlItems_among vs⟩

theorem ofTomlEntries_among : ∀ es : List (String × Toml.Value), ∀ e ∈ ofTomlEntries es, e.2.Among known
  | [] => by
    rw [ofTomlEntries]
    exact List.forall_mem_nil _
  | (_, v) :: es => by
    rw [ofTomlEntries, List.forall_mem_cons]
    exact ⟨ofToml_among v, ofTomlEntries_among es⟩

end

theorem ofTarget_among (target : Target) : target.value.Among known := by
  refine ofEntries_among (List.forall_mem_append.mpr ⟨by simp, ?_⟩)
  cases target.database <;> simp

end Value

/-! ### The functions of a project -/

namespace Project
variable (p : Project) {known : Known}

theorem functions_among {name : String} {act : List Argument → Except Cause Value} (hact : (name, act) ∈ p.functions)
    {as : List Argument} (has : ∀ a ∈ as, a.value.Among known) {v : Value} (h : act as = .ok v) : v.Among known := by
  have hdefault {found : Option Value} (hfound : ∀ v ∈ found, v.Among known) {missing : String}
      (h : orDefault found as missing = .ok v) : v.Among known := by
    unfold orDefault at h
    split at h
    · rename_i hv
      cases h
      rcases (Option.orElse_eq_some _ _ _).mp hv with hv | ⟨-, hv⟩
      · exact hfound _ hv
      · exact Argument.among_of_find? has hv
    · cases h
  simp only [functions, List.mem_cons, List.not_mem_nil, or_false, Prod.mk.injEq] at hact
  rcases hact with ⟨-, rfl⟩ | ⟨-, rfl⟩ | ⟨-, rfl⟩ | ⟨-, rfl⟩ | ⟨-, rfl⟩
  · obtain ⟨name, -, h⟩ := bind_eq_ok_iff.mp h
    split at h
    · cases h
      exact Value.among_string _
    · cases h
  · obtain ⟨source, -, h⟩ := bind_eq_ok_iff.mp h
    obtain ⟨table, -, h⟩ := bind_eq_ok_iff.mp h
    cases h
    exact Value.among_string _
  · obtain ⟨name, -, h⟩ := bind_eq_ok_iff.mp h
    refine hdefault (fun v hv => ?_) h
    obtain ⟨w, -, rfl⟩ := Option.map_eq_some_iff.mp hv
    exact Value.ofToml_among w
  · obtain ⟨name, -, h⟩ := bind_eq_ok_iff.mp h
    refine hdefault (fun v hv => ?_) h
    obtain ⟨s, -, rfl⟩ := Option.map_eq_some_iff.mp hv
    exact Value.among_string s
  · cases h
    exact Value.among_undefined

theorem hosts_keep (f : SourceFile) : ∀ host ∈ (p.environment f).hosts, host.Keeps known := by
  intro host hhost q as has
  obtain ⟨⟨name, act⟩, hact, rfl⟩ := List.mem_map.mp hhost
  exact Action.among_ofExcept fun _ => p.functions_among hact has

/-- Whatever comes up while a file of a project is rendered holds the functions of the project by their own names. -/
theorem environment_among (f : SourceFile) : (p.environment f).Among (p.environment f).known where
  globals name v h := by
    rcases p.globals_cases h with rfl | ⟨i, g, hg, rfl⟩ | ⟨b, rfl⟩
    · exact Value.ofTarget_among _
    · have hhost : (p.environment f).hosts[i]? = some ⟨g.1, fun _ as => .ofExcept (g.2 as)⟩ :=
        List.getElem?_map.trans (congrArg _ hg)
      exact Value.among_function.mpr (Function.among_host.mpr ⟨_, hhost, rfl⟩)
    · exact Value.among_function.mpr (Function.among_builtin b)
  overlay name v h := by
    obtain ⟨s, rfl⟩ := p.overlay_string h
    exact Value.among_string s
  hosts := p.hosts_keep f
  release := rfl
  library _ _ _ d _ := Set.mem_univ d
  inner _ _ d _ := Set.mem_univ d

end Project

end TemplatedSql
