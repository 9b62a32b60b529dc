import TemplatedSql.Proofs.Evaluation

/-! # Sessions keep the arena in order

A program may do with a context what it likes, in any order, also inside scopes of its own and after errors.
Between any two of its operations the scopes form a forest in which parents come before their children, the
roots of imported templates among the roots, and nothing is left behind by an operation but the templates
imported during it. -/

namespace TemplatedSql
namespace Session

/-! ### What a program does with a context -/

/-- An operation on a context. In a scope of its own the program does further operations, and may fail after
    them. -/
inductive Op
  | render (body : Body)
  | renderAgain (serial : Nat) (body : Body)
  | get (name : String) (position : Position)
  | lookup (name : String)
  | set (name : String) (v : Value)
  | call (f : Function) (position : Position) (arguments : List Argument)
  | scoped (ops : List Op) (error : Option TemplateError)

/-- An evaluation of which the program only waits for the end. -/
def await {α : Type} (m : Eval α) : Eval Unit := fun c =>
  match m c with
  | .done _ d | .failed _ d => .done () d
  | .exhausted => .exhausted

/-- An end with the given error, if any. -/
def finish : Option TemplateError → Eval Unit
  | none => Eval.pure ()
  | some e => fun c => .failed e c

mutual

/-- What an operation does to a context. -/
def Op.run (env : Environment) : Op → Eval Unit
  | .render body => await (Session.render env body)
  | .renderAgain serial body => await (Session.renderAgain env serial body)
  | .get name p => await (Session.get env name p)
  | .lookup name => fun c => await (fun c => .done (env.lookup c name) c) c
  | .set name v => Session.set name v
  | .call f p arguments => await (Session.call env f p arguments)
  | .scoped ops error => Session.inChild env (do Op.runAll env ops; finish error)

/-- What operations do one after the other. An error does not keep the next one from being done. -/
def Op.runAll (env : Environment) : List Op → Eval Unit
  | [] => Eval.pure ()
  | op :: ops => do await (op.run env); Op.runAll env ops

end

/-- Doing `ops` from `c` on, the program comes to a point where the context is `d` and `rest` is still to be
    done, at the top or inside a scope of its own. -/
inductive Reaches (env : Environment) : List Op → Context → List Op → Context → Prop
  | here {ops c} : Reaches env ops c ops c
  | next {op ops c d rest e} (h : (op.run env c).context? = some d) (more : Reaches env ops d rest e) :
    Reaches env (op :: ops) c rest e
  | inside {inner error ops c rest e}
    (more : Reaches env inner (c.opening (some c.current)) rest e) :
    Reaches env (.scoped inner error :: ops) c rest e

/-! ### Frames of operations -/

section
variable {env : Environment} {n : Nat} {names : Set String}

theorem context?_await {α : Type} (m : Eval α) (c : Context) : (await m c).context? = (m c).context? := by
  unfold await
  cases m c <;> rfl

theorem await_keeps {α : Type} {m : Eval α} (h : m.Keeps env n names) : (await m).Keeps env n names where
  frame hd := h.frame (by rwa [context?_await] at hd)
  ends hroom := by
    obtain ⟨d, hd⟩ := h.ends hroom
    exact ⟨d, by rw [context?_await, hd]⟩

theorem finish_keeps (error : Option TemplateError) : (finish error).Keeps env n names := by
  cases error with
  | none => exact .pure ()
  | some e => exact .of_step fun c => ⟨c, rfl, Frame.refl c⟩

theorem renderAgain_keeps (hf : env.Forgets) (serial : Nat) (body : Body) :
    (renderAgain env serial body).Keeps env (env.allowance + 1) Set.univ where
  frame hd := (env.enter_keeps hf body ⟨.given serial, []⟩).frame hd
  ends {c} _ := (env.enter_keeps hf body ⟨.given serial, []⟩).ends (env.room_lt_allowance c)

theorem render_keeps (hf : env.Forgets) (body : Body) : (render env body).Keeps env (env.allowance + 1) Set.univ where
  frame {c _} hd :=
    have hgiven : Frame env Set.univ c { c with given := c.given + 1 } := Frame.of_eq rfl rfl rfl rfl
    hgiven.trans ((renderAgain_keeps hf c.given body).frame hd)
  ends {c} _ := (renderAgain_keeps hf c.given body).ends (Nat.lt_succ_of_lt (env.room_lt_allowance _))

mutual

theorem Op.run_keeps (hf : env.Forgets) : ∀ op : Op, (op.run env).Keeps env (env.allowance + 1) Set.univ
  | .render body => by
    rw [Op.run]
    exact await_keeps (render_keeps hf body)
  | .renderAgain serial body => by
    rw [Op.run]
    exact await_keeps (renderAgain_keeps hf serial body)
  | .get name p => by
    rw [Op.run]
    exact await_keeps ((Eval.Keeps.readVariable (env.enter_keeps hf) name p).mono (Set.empty_subset _))
  | .lookup name => by
    rw [Op.run]
    exact .of_step fun c => ⟨c, rfl, Frame.refl c⟩
  | .set name v => by
    rw [Op.run]
    exact .update fun c => Frame.bind (Set.mem_univ name) c v
  | .call f p arguments => by
    rw [Op.run]
    exact await_keeps ((Eval.Keeps.call (env.enter_keeps hf) hf f p arguments).mono (Set.empty_subset _))
  | .scoped ops error => by
    rw [Op.run]
    exact (Eval.Keeps.inChild hf (.bind (Op.runAll_keeps hf ops) fun _ => finish_keeps error)).mono (Set.empty_subset _)

theorem Op.runAll_keeps (hf : env.Forgets) : ∀ ops : List Op, (Op.runAll env ops).Keeps env (env.allowance + 1) Set.univ
  | [] => by
    rw [Op.runAll]
    exact .pure ()
  | op :: ops => by
    rw [Op.runAll]
    exact .bind (await_keeps (op.run_keeps hf)) fun _ => Op.runAll_keeps hf ops

end

end

end Session

/-! ### The arena in order -/

/-- What holds of a context between two operations. -/
structure Context.Ordered (c : Context) : Prop where
  first : c.arena.isLive 0 = true
  last : c.arena.EndsLive
  current : c.arena.isLive c.current = true
  parent : ∀ i s p, c.arena.scope? i = some s → s.parent = some p → c.arena.isLive p = true ∧ p < i
  imported : ∀ name i, c.imported.get? name = some i → ∃ s, c.arena.scope? i = some s ∧ s.parent = none

namespace Context.Ordered
variable {env : Environment} {names : Set String} {c d : Context}

theorem initial : Context.initial.Ordered where
  first := rfl
  last := rfl
  current := rfl
  parent i s p hs hp := by
    cases i with
    | zero =>
      cases hs
      cases hp
    | succ i =>
      rw [Arena.scope?_of_length_le (by simp [Context.initial])] at hs
      cases hs
  imported _ _ h := by cases h

/-- An evaluation keeps the order: the scopes that were there keep their parents, and the new ones are roots. -/
theorem of_frame (hr : env.discard = Context.release) (h : Frame env names c d) (ho : c.Ordered) : d.Ordered where
  first := h.isLive ho.first
  last := h.ends hr ho.last
  current := h.current ▸ h.isLive ho.current
  parent i s p hs hp := by
    rcases h.fresh hr i (Arena.isLive_of_scope? hs) with hi | ⟨name, hnone, hi⟩
    · obtain ⟨t, ht⟩ := Arena.isLive_iff.mp hi
      obtain ⟨t', ht', hparent⟩ := h.kept ht
      rw [hs] at ht'
      cases ht'
      obtain ⟨hlive, hlt⟩ := ho.parent i t p ht (hparent.symm.trans hp)
      exact ⟨h.isLive hlive, hlt⟩
    -- A scope that is new is the root of a template and has no parent.
    · rcases h.root name i hi with hold | ⟨-, -, t, ht, hroot⟩
      · rw [hnone] at hold
        cases hold
      · rw [hs] at ht
        cases ht
        rw [hp] at hroot
        cases hroot
  imported name i hi := by
    rcases h.root name i hi with hold | ⟨-, -, s, hs, hroot⟩
    · obtain ⟨s, hs, hroot⟩ := ho.imported name i hold
      obtain ⟨t, ht, hparent⟩ := h.kept hs
      exact ⟨t, ht, hparent.trans hroot⟩
    · exact ⟨s, hs, hroot⟩

theorem child (ho : c.Ordered) : (c.opening (some c.current)).Ordered := by
  have hlive : ∀ i, c.arena.isLive i = true → (c.arena.push (some c.current)).isLive i = true := by
    intro i hi
    obtain ⟨s, hs⟩ := Arena.isLive_iff.mp hi
    exact Arena.isLive_of_scope? (Arena.scope?_push_of_scope? _ hs)
  exact
    { first := hlive 0 ho.first
      last := Arena.endsLive_push _ _
      current := Arena.isLive_of_scope? (Arena.scope?_push_length _ _)
      parent := fun i s p hs hp => by
        rw [Context.opening, Arena.scope?_push] at hs
        split at hs
        · rename_i hi
          cases hs
          cases hp
          obtain ⟨t, ht⟩ := Arena.isLive_iff.mp ho.current
          exact ⟨hlive _ ho.current, hi ▸ Arena.lt_length_of_scope? ht⟩
        · obtain ⟨hp, hlt⟩ := ho.parent i s p hs hp
          exact ⟨hlive p hp, hlt⟩
      imported := fun name i hi => by
        obtain ⟨s, hs, hroot⟩ := ho.imported name i hi
        exact ⟨s, Arena.scope?_push_of_scope? _ hs, hroot⟩ }

theorem of_reaches (hr : env.discard = Context.release) {ops rest : List Session.Op}
    (h : Session.Reaches env ops c rest d) (ho : c.Ordered) : d.Ordered := by
  induction h with
  | here => exact ho
  | @next op ops c d rest e h more ih =>
    exact ih (ho.of_frame hr ((Session.Op.run_keeps (Environment.forgets_release hr) op).frame h))
  | inside more ih => exact ih ho.child

end Context.Ordered

/-! ### Sessions -/

/-- Between any two operations of a session the arena is in order: the first scope, the last slot and the
    current scope are live, the parent of a live scope is live and comes before it, and the scope of an imported
    template is a live root. The next operation, whatever function it may call, ends in the same scope and at
    the same depth, and afterwards the live scopes are those from before and the roots imported during it. What a
    function of the host does while it is called is an action: it opens no scope and calls nothing. -/
theorem session_in_order {env : Environment} (hr : env.discard = Context.release) {ops rest : List Session.Op}
    {c : Context} (h : Session.Reaches env ops Context.initial rest c) :
    c.Ordered ∧ ∀ op more, rest = op :: more → ∃ d, (op.run env c).context? = some d ∧
      d.current = c.current ∧ d.depth = c.depth ∧ ∀ i, d.arena.isLive i = true ↔
        c.arena.isLive i = true ∨ ∃ name, c.imported.get? name = none ∧ d.imported.get? name = some i := by
  refine ⟨Context.Ordered.initial.of_reaches hr h, fun op _ _ => ?_⟩
  have hkeeps := Session.Op.run_keeps (Environment.forgets_release hr) op
  obtain ⟨d, hd⟩ := hkeeps.ends (Nat.lt_succ_of_lt (env.room_lt_allowance c))
  have hframe := hkeeps.frame hd
  refine ⟨d, hd, hframe.current, hframe.depth, fun i => ⟨hframe.fresh hr i, ?_⟩⟩
  rintro (hi | ⟨name, hnone, hi⟩)
  · exact hframe.isLive hi
  · rcases hframe.root name i hi with hold | ⟨-, -, s, hs, -⟩
    · rw [hnone] at hold
      cases hold
    · exact Arena.isLive_of_scope? hs

/-- A session that imports a template inside a scope of its own: the root of the template lies
    above that scope, so the slot of the scope stays behind as a hole. -/
theorem session_in_order_after_import :
    let p : Position := ⟨1, 1⟩
    let lib : Template := ⟨"lib", ⟨p, [.assign p "lib" (.literal p (.boolean true))]⟩⟩
    let env : Environment := { library := [("lib", lib)] }
    ∃ c, env.discard = Context.release ∧
      Session.Reaches env [.scoped [.get "lib" p] none, .lookup "lib"] Context.initial [.lookup "lib"] c ∧
      c.arena.isLive 1 = false ∧ c.arena.isLive 2 = true ∧ c.Ordered := by
  intro p lib env
  have hreach : Session.Reaches env [.scoped [.get "lib" p] none, .lookup "lib"] Context.initial [.lookup "lib"] _ :=
    .next rfl .here
  exact ⟨_, rfl, hreach, rfl, rfl, (session_in_order rfl hreach).1⟩

end TemplatedSql
