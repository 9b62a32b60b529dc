import TemplatedSql.Proofs.Import.Once

/-! # Where the root of a template comes from

Between two moments of an evaluation nothing is imported. So in a context that began without imports, a root is that of
a template which was imported at one of the moments before. -/

namespace TemplatedSql

/-- Moments that lead from some imported templates to others: each one finds those that the one before left. -/
def Moment.Accounts (roots : Table Nat) : List Moment → Table Nat → Prop
  | [], final => final = roots
  | m :: moments, final => m.context.imported = roots ∧ Accounts m.next.imported moments final

namespace Moment.Accounts
variable {roots middle final : Table Nat} {l k : List Moment}

theorem append (h₁ : Accounts roots l middle) (h₂ : Accounts middle k final) : Accounts roots (l ++ k) final := by
  induction l generalizing roots with
  | nil =>
    obtain rfl : middle = roots := h₁
    exact h₂
  | cons m l ih => exact ⟨h₁.1, ih h₁.2⟩

/-- What is imported at a moment was so from the start, or was imported at one of the moments. -/
theorem origin (h : Accounts roots l final) {m : Moment} (hm : m ∈ l) {key : String} {root : Nat}
    (hroot : m.context.imported.get? key = some root) : roots.get? key = some root ∨
      ∃ name t c, .opens name t c ∈ l ∧ t.name = key ∧ c.arena.length = root := by
  induction l generalizing roots with
  | nil => cases hm
  | cons x l ih =>
    obtain ⟨hx, hl⟩ := h
    rcases List.mem_cons.mp hm with rfl | hm
    · exact .inl (hx ▸ hroot)
    · rcases ih hl hm with hnext | ⟨name, t, c, hopens, hkey⟩
      · cases x with
        | opens name t c =>
          by_cases hkey : key = t.name
          · subst hkey
            rw [next, Context.imported_importing] at hnext
            exact .inr ⟨name, t, c, List.mem_cons_self, rfl, Option.some.inj hnext⟩
          · rw [next, Context.imported_importing_of_ne hkey] at hnext
            exact .inl (hx ▸ hnext)
        | _ => exact .inl (hx ▸ hnext)
      · exact .inr ⟨name, t, c, List.mem_cons_of_mem x hopens, hkey⟩

end Moment.Accounts

namespace Watched
variable {α β : Type} {env : Environment}

/-- The moments of an evaluation account for what it imports. -/
def Accounted (m : Watched α) : Prop :=
  ∀ c e, (m.run c).context? = some e → Moment.Accounts c.imported (m.moments c) e.imported

namespace Accounted

theorem quiet {m : Eval α} (h : m.Quiet env) : (Watched.quiet m).Accounted := by
  intro c e he
  obtain ⟨d, hd, -, hi⟩ := h c
  obtain rfl : d = e := Option.some.inj (hd.symm.trans he)
  exact hi

theorem bind {m : Watched α} {f : α → Watched β} (hm : m.Accounted) (hf : ∀ v, (f v).Accounted) :
    (m >>= f).Accounted := by
  intro c e he
  change (Eval.bind m.run (fun v => (f v).run) c).context? = some e at he
  show Moment.Accounts c.imported (m.moments c ++ _) e.imported
  unfold Eval.bind at he
  cases hmc : m.run c with
  | done v d =>
    rw [hmc] at he
    have hd : (m.run c).context? = some d := by rw [hmc]; rfl
    exact (hm c d hd).append (hf v d e he)
  | failed error d =>
    rw [hmc] at he
    rw [List.append_nil]
    exact hm c e (by rw [hmc]; exact he)
  | exhausted =>
    rw [hmc] at he
    cases he

section
variable (hf : env.Forgets)
include hf

theorem inScope {m : Watched α} (hm : m.Accounted) (parent : Nat) : (Watched.inScope env parent m).Accounted := by
  intro c e he
  change (Eval.inScope env parent m.run c).context? = some e at he
  unfold Eval.inScope at he
  rw [Eval.context?_andThen] at he
  obtain ⟨d, hd, rfl⟩ := Option.map_eq_some_iff.mp he
  obtain ⟨arena, hdiscard, -⟩ := hf { d with current := c.current } c.arena.length
  rw [hdiscard]
  exact hm (c.opening (some parent)) d hd

theorem inChild {m : Watched α} (hm : m.Accounted) : (Watched.inChild env m).Accounted :=
  fun c => inScope hf hm c.current c

end

section
variable {enter : Body → Address → Watched String} (henter : ∀ body address, (enter body address).Accounted)
include henter

theorem readVariable (name : String) (p : Position) : (Watched.readVariable env enter name p).Accounted := by
  intro c e he
  change (Eval.readVariable env (runs enter) name p c).context? = some e at he
  by_cases hknown : ∀ t, env.lookup c name = none → env.library.get? name = some t → c.imported.get? t.name ≠ none
  · rw [moments_readVariable_of_known p hknown]
    refine ⟨rfl, ?_⟩
    unfold Eval.readVariable at he
    cases hlookup : env.lookup c name with
    | some v =>
      rw [hlookup] at he
      cases he
      rfl
    | none =>
      rw [hlookup] at he
      cases ht : env.library.get? name with
      | none =>
        rw [ht] at he
        cases he
        rfl
      | some t =>
        obtain ⟨root, hroot⟩ := Option.ne_none_iff_exists'.mp (hknown t hlookup ht)
        simp only [ht, Eval.bind, Eval.importTemplate, hroot] at he
        cases he
        rfl
  · push Not at hknown
    obtain ⟨t, hlookup, ht, hi⟩ := hknown
    rw [Eval.context?_readVariable hlookup ht, Eval.context?_importTemplate hi] at he
    obtain ⟨d, hd, rfl⟩ := Option.map_eq_some_iff.mp he
    rw [moments_readVariable_of_import p hlookup ht hi hd]
    have hbody := henter t.body ⟨.library t.name, []⟩ (c.importing t.name) d hd
    exact ⟨rfl, rfl, hbody.append ⟨rfl, rfl⟩⟩

theorem callMacro (hf : env.Forgets) (d : MacroDef) (address : Address) (scope : Nat) (p : Position)
    (arguments : List Argument) : (Watched.callMacro env enter d address scope p arguments).Accounted := by
  intro c e he
  change (Eval.callMacro env (runs enter) d address scope p arguments c).context? = some e at he
  show Moment.Accounts c.imported (if _ then _ else _) e.imported
  by_cases hdepth : maxCallDepth ≤ c.depth
  · rw [if_pos hdepth]
    simp only [Eval.callMacro, if_pos hdepth] at he
    cases he
    rfl
  · rw [if_neg hdepth]
    cases hb : d.bindArguments arguments with
    | error cause =>
      simp only [Eval.callMacro, if_neg hdepth, hb] at he
      cases he
      rfl
    | ok bindings =>
      rw [Eval.context?_callMacro (Nat.lt_of_not_le hdepth) hb] at he
      obtain ⟨d', hd, rfl⟩ := Option.map_eq_some_iff.mp he
      have hbound : (Eval.update fun c => bindings.foldl (fun c b => c.bind b.1 b.2) c).Quiet env := .boundAll bindings
      have hbody : (withBindings enter bindings d.body address).Accounted :=
        bind (quiet hbound) fun _ => henter d.body address
      exact inScope hf hbody scope { c with depth := c.depth + 1 } d' hd

/-- Whatever is put together from what accounts for its imports does so. -/
theorem closed (hf : env.Forgets) : Closed env enter Accounted where
  quiet := quiet
  bind := bind
  inChild := inChild hf
  readVariable := readVariable henter
  callMacro := callMacro henter hf

end
end Accounted
end Watched

theorem watchBody_accounted {env : Environment} (hf : env.Forgets) (n : Nat) (body : Body) (address : Address) :
    (watchBody env n body address).Accounted := by
  induction n generalizing body address with
  | zero =>
    intro c e he
    cases he
  | succ n ih => exact Body.watch_closed (Watched.Accounted.closed ih hf) address body

theorem Session.watchRender_accounted {env : Environment} (hf : env.Forgets) (body : Body) :
    (watchRender env body).Accounted := by
  intro c e he
  change (env.enter body ⟨.given c.given, []⟩ { c with given := c.given + 1 }).context? = some e at he
  rw [← env.runs_watch] at he
  exact watchBody_accounted hf env.allowance body ⟨.given c.given, []⟩ { c with given := c.given + 1 } e he

end TemplatedSql
