import TemplatedSql.Proofs.Relocation.Render
import TemplatedSql.Proofs.Unplaced.Context

/-! # Evaluations up to places

From contexts that coincide up to places, evaluations of what differs in places only end alike: with values that are
the same up to places, or with errors of the same cause. A template is imported at the same moment in both runs, and
an error in it is reported with the place that it has in the template, so that the cause does not depend on the place
of the name. -/

namespace TemplatedSql

/-! ### Outcomes -/

section
variable {α β γ δ : Type} {blocks more : Set Nat} {r : α → γ} {s : β → δ}

/-- Ends of the same kind: values that `r` does not tell apart, or errors of the same cause. -/
inductive Outcome.Coincide (blocks : Set Nat) (r : α → γ) : Outcome α → Outcome α → Prop
  | done {v w c c'} (hvw : r v = r w) (hc : c.Coincide blocks c') : Outcome.Coincide blocks r (.done v c) (.done w c')
  | failed {e e' c c'} (he : e.cause = e'.cause) (hc : c.Coincide blocks c') :
    Outcome.Coincide blocks r (.failed e c) (.failed e' c')
  | exhausted : Outcome.Coincide blocks r .exhausted .exhausted

namespace Outcome.Coincide

theorem symm {o o' : Outcome α} (h : Outcome.Coincide blocks r o o') : Outcome.Coincide blocks r o' o := by
  cases h with
  | done hvw hc => exact .done hvw.symm hc.symm
  | failed he hc => exact .failed he.symm hc.symm
  | exhausted => exact .exhausted

theorem trans {o o' o'' : Outcome α} (h : Outcome.Coincide blocks r o o') (h' : Outcome.Coincide blocks r o' o'') :
    Outcome.Coincide blocks r o o'' := by
  cases h with
  | done hvw hc =>
    cases h' with
    | done hvw' hc' => exact .done (hvw.trans hvw') (hc.trans hc')
  | failed he hc =>
    cases h' with
    | failed he' hc' => exact .failed (he.trans he') (hc.trans hc')
  | exhausted => exact h'

variable {m m' : Eval α} {c c' : Context}

theorem bind {f f' : α → Eval β} (h : Outcome.Coincide blocks r (m c) (m' c'))
    (hf : ∀ v w d d', r v = r w → d.Coincide blocks d' → Outcome.Coincide blocks s (f v d) (f' w d')) :
    Outcome.Coincide blocks s (Eval.bind m f c) (Eval.bind m' f' c') := by
  unfold Eval.bind
  generalize m c = o at h
  generalize m' c' = o' at h
  cases h with
  | done hvw hd => exact hf _ _ _ _ hvw hd
  | failed he hd => exact .failed he hd
  | exhausted => exact .exhausted

theorem andThen {f f' : Context → Context} (h : Outcome.Coincide more r (m c) (m' c'))
    (hf : ∀ d d', d.Coincide more d' → (f d).Coincide blocks (f' d')) :
    Outcome.Coincide blocks r (Eval.andThen m f c) (Eval.andThen m' f' c') := by
  unfold Eval.andThen
  generalize m c = o at h
  generalize m' c' = o' at h
  cases h with
  | done hvw hd => exact .done hvw (hf _ _ hd)
  | failed he hd => exact .failed he (hf _ _ hd)
  | exhausted => exact .exhausted

end Outcome.Coincide

/-! ### Evaluations -/

/-- Evaluations that end alike from contexts that coincide, whichever blocks are open. -/
def Eval.Coincide (r : α → γ) (m m' : Eval α) : Prop :=
  ∀ blocks c c', c.Coincide blocks c' → Outcome.Coincide blocks r (m c) (m' c')

namespace Eval.Coincide
variable {m m' m'' : Eval α}

theorem symm (h : Eval.Coincide r m m') : Eval.Coincide r m' m :=
  fun blocks c c' hc => (h blocks c' c hc.symm).symm

theorem trans (h : Eval.Coincide r m m') (h' : Eval.Coincide r m' m'') : Eval.Coincide r m m'' :=
  fun blocks c c' hc => (h blocks c c (hc.trans hc.symm)).trans (h' blocks c c' hc)

theorem pure {v w : α} (h : r v = r w) : Eval.Coincide r (Eval.pure v) (Eval.pure w) :=
  fun _ _ _ hc => .done h hc

theorem fail (p q : Position) (cause : Cause) : Eval.Coincide r (Eval.fail p cause) (Eval.fail q cause) :=
  fun _ _ _ hc => .failed rfl hc

theorem located {a b : Except Cause α} (p q : Position) (h : ExceptRel (fun v w => r v = r w) a b) :
    Eval.Coincide r (Eval.located p a) (Eval.located q b) := by
  cases h with
  | ok h => exact pure h
  | error cause => exact fail p q cause

theorem update {f f' : Context → Context} (hf : ∀ blocks c c', c.Coincide blocks c' → (f c).Coincide blocks (f' c')) :
    Eval.Coincide id (Eval.update f) (Eval.update f') :=
  fun blocks c c' hc => .done rfl (hf blocks c c' hc)

theorem bind {f f' : α → Eval β} (hm : Eval.Coincide r m m')
    (hf : ∀ v w, r v = r w → Eval.Coincide s (f v) (f' w)) : Eval.Coincide s (m >>= f) (m' >>= f') :=
  fun blocks c c' hc => (hm blocks c c' hc).bind fun v w d d' hvw hd => hf v w hvw blocks d d' hd

theorem bindAll {bindings bindings' : Table Value}
    (h : Value.entriesUnplaced bindings = Value.entriesUnplaced bindings') :
    Eval.Coincide id (Eval.update fun c => bindings.foldl (fun c b => c.bind b.1 b.2) c)
      (Eval.update fun c => bindings'.foldl (fun c b => c.bind b.1 b.2) c) :=
  update fun _ _ _ hc => hc.bindAll h

theorem joinAll {f : α → Eval String} {g : β → Eval String} {R : α → β → Prop}
    (hfg : ∀ a b, R a b → Eval.Coincide id (f a) (g b)) {as : List α} {bs : List β} (h : List.Forall₂ R as bs)
    (text : String) : Eval.Coincide id (Eval.joinAll f text as) (Eval.joinAll g text bs) := by
  induction h generalizing text with
  | nil => exact pure rfl
  | cons hab _ ih =>
    rw [joinAll_cons, joinAll_cons]
    exact bind (hfg _ _ hab) fun s t (hst : s = t) => hst ▸ ih (text ++ s)

/-- The rounds of a loop. -/
theorem rounds {m m' : Eval String} (hm : Eval.Coincide id m m') {rounds rounds' : List (Table Value)}
    (h : rounds.map Value.entriesUnplaced = rounds'.map Value.entriesUnplaced) :
    Eval.Coincide id
      (Eval.joinAll
        (fun (bindings, round) => do
          Eval.update fun c => bindings.foldl (fun c b => c.bind b.1 b.2) c
          Eval.update fun c => c.bind "loop" (loopInfo round rounds.length)
          m)
        "" rounds.zipIdx)
      (Eval.joinAll
        (fun (bindings, round) => do
          Eval.update fun c => bindings.foldl (fun c b => c.bind b.1 b.2) c
          Eval.update fun c => c.bind "loop" (loopInfo round rounds'.length)
          m')
        "" rounds'.zipIdx) := by
  have hrounds := forall₂_iff_map_eq.mpr h
  rw [hrounds.length_eq]
  refine joinAll (fun a b hab => ?_) (forall₂_zipIdx hrounds 0) ""
  obtain ⟨bindings, round⟩ := a
  obtain ⟨bindings', round'⟩ := b
  obtain ⟨hbindings, rfl⟩ := hab
  exact bind (bindAll hbindings) fun _ _ _ =>
    bind (update fun _ _ _ hc => hc.bind rfl "loop") fun _ _ _ => hm

end Eval.Coincide

end

/-! ### Scopes -/

section
variable {α γ : Type} {r : α → γ} {env : Environment} {m m' : Eval α}

theorem Eval.inScope_coincide (hr : env.discard = Context.release) (hm : Eval.Coincide r m m') (parent : Nat) :
    Eval.Coincide r (Eval.inScope env parent m) (Eval.inScope env parent m') := by
  intro blocks c c' hc
  refine (hm _ _ _ (hc.opening (some parent))).andThen fun d d' hd => ?_
  simp only [hr]
  rw [← hc.current, ← hc.length_eq]
  -- The slot of the new scope was free, so it is none of the blocks around.
  exact hd.leave (fun hold => (hc.encloses.lt_length (.inl hold)).false) hc.encloses.current

theorem Eval.inChild_coincide (hr : env.discard = Context.release) (hm : Eval.Coincide r m m') :
    Eval.Coincide r (Eval.inChild env m) (Eval.inChild env m') := by
  intro blocks c c' hc
  unfold Eval.inChild
  rw [← hc.current]
  exact inScope_coincide hr hm c.current blocks c c' hc

end

/-! ### Imports -/

/-- The place of a name that is imported is told only by the place of an error. -/
theorem Eval.importTemplate_place (enter : Body → Address → Eval String) (t : Template) (p q : Position) (c : Context) :
    importTemplate enter t q c = mapError (importTemplate enter t p) (fun e => ⟨q, e.cause⟩) c := by
  unfold importTemplate mapError
  beta_reduce
  cases c.imported.get? t.name with
  | some scope => rfl
  | none =>
    dsimp only [Eval.bind, andThen]
    generalize enter t.body ⟨.library t.name, []⟩ _ = o
    cases o <;> rfl

section
variable {env : Environment} (hr : env.discard = Context.release) (henv : env.Alike .marks Eq env)
include hr henv

theorem Eval.importTemplate_coincide {n : Nat} {name : String} {t : Template} (ht : env.library.get? name = some t)
    (p q : Position) :
    Eval.Coincide id (importTemplate (renderBody env n) t p) (importTemplate (renderBody env n) t q) := by
  intro blocks c c' hc
  have hkeeps := Keeps.importTemplate (renderBody_keeps henv.forgets n) ht p
  have halike := importTemplate_alike (renderBody_alike (k := agreement c.roots Eq) henv n)
    (hc.agreeOn.related hc.encloses.roots (biUnique_of_eq fun _ _ h => h)) t p
  have hsame : Outcome.Alike (Context.Coincide blocks) (fun _ _ => Eq) (importTemplate (renderBody env n) t p c)
      (importTemplate (renderBody env n) t p c') := by
    refine halike.imp fun d d' hd hd' hrelated => ⟨?_, fun i j hij => hrelated.admits.1 i j (Or.inr hij)⟩
    have hframe := hkeeps.frame hd
    obtain ⟨hclosed, hagree⟩ := Context.AgreeOn.of_related hc.encloses.roots hframe.imported hrelated
    rw [hframe.roots_eq] at hclosed hagree
    exact hc.of_agreeOn hr hframe (hkeeps.frame hd') hclosed hagree
  rw [importTemplate_place _ t p q c']
  unfold mapError
  generalize importTemplate (renderBody env n) t p c = o at hsame
  generalize importTemplate (renderBody env n) t p c' = o' at hsame
  cases hsame with
  | done hd heq => exact .done heq hd
  | failed e hd => exact .failed rfl hd
  | exhausted => exact .exhausted

theorem Eval.readVariable_coincide (n : Nat) (name : String) (p q : Position) :
    Eval.Coincide Value.unplaced (readVariable env (renderBody env n) name p)
      (readVariable env (renderBody env n) name q) := by
  intro blocks c c' hc
  have hlookup : (env.lookup c name).map Value.unplaced = (env.lookup c' name).map Value.unplaced := by
    have hfind := Arena.find?_unplaced hc.layout hc.bound c.current name
    rw [Environment.lookup, Environment.lookup, ← hc.current]
    generalize c.arena.find? c.current name = found at hfind
    generalize c'.arena.find? c.current name = found' at hfind
    cases found <;> cases found' <;> simp_all
  unfold readVariable
  generalize env.lookup c name = v at hlookup
  generalize env.lookup c' name = w at hlookup
  cases v with
  | some v =>
    cases w with
    | some w => exact .done (Option.some.inj hlookup) hc
    | none => cases hlookup
  | none =>
    cases w with
    | some w => cases hlookup
    | none =>
      cases ht : env.library.get? name with
      | none => exact .done rfl hc
      | some t =>
        refine (importTemplate_coincide hr henv ht p q blocks c c' hc).bind fun scope _ d d' heq hd => ?_
        cases heq
        have hbound := hd.bound scope name
        refine .done ?_ hd
        change Value.unplaced ((d.arena.bound? scope name).getD .undefined) =
          Value.unplaced ((d'.arena.bound? scope name).getD .undefined)
        generalize d.arena.bound? scope name = v at hbound
        generalize d'.arena.bound? scope name = w at hbound
        cases v <;> cases w <;> simp_all

end

/-! ### Calls -/

section
variable {env : Environment} {enter : Body → Address → Eval String} (hplaceless : env.Placeless)
  (hread : ∀ name p q,
    Eval.Coincide Value.unplaced (Eval.readVariable env enter name p) (Eval.readVariable env enter name q))
  (henter : ∀ body body' address, body.unplaced = body'.unplaced →
    Eval.Coincide id (enter body address) (enter body' address))

include hread in
/-- Actions that are the same without places are performed alike. -/
theorem Eval.perform_coincide (p q : Position) {a b x : Action} (ha : Action.Relocated Position.toStart a x)
    (hb : Action.Relocated Position.toStart b x) :
    Eval.Coincide Value.unplaced (Eval.perform env enter p a) (Eval.perform env enter q b) := by
  induction ha generalizing b with
  | finish v =>
    generalize hx : Action.finish (v.relocate Position.toStart) = x at hb
    cases hb with
    | finish w => exact .pure (Action.finish.inj hx)
    | _ => cases hx
  | fail cause =>
    cases hb
    exact .fail p q cause
  | log message next ih =>
    cases hb with
    | log message next' =>
      refine .bind (.update fun blocks c c' hc => ?_) fun _ _ _ => ih next'
      exact hc.of_eq rfl rfl rfl rfl rfl rfl hc.depth hc.accesses
  | @read f g name next ih =>
    cases hb with
    | read name next' =>
      refine .bind (hread name p q) fun v w hvw => ih v ?_
      rw [show v.relocate Position.toStart = w.relocate Position.toStart from hvw]
      exact next' w
  | bind name v next ih =>
    generalize hx : Action.bind name (v.relocate Position.toStart) _ = x at hb
    cases hb with
    | bind name' w next' =>
      obtain ⟨rfl, hvw, rfl⟩ := Action.bind.inj hx
      exact .bind (.update fun _ _ _ hc => hc.bind hvw name) fun _ _ _ => ih next'
    | _ => cases hx

include henter

theorem Eval.callMacro_coincide (hr : env.discard = Context.release) {d d' : MacroDef}
    (hd : d.unplaced = d'.unplaced) (address : Address) (scope : Nat) (p q : Position) {as bs : List Argument}
    (hargs : as.map Argument.unplaced = bs.map Argument.unplaced) :
    Eval.Coincide Value.unplaced (Eval.callMacro env enter d address scope p as)
      (Eval.callMacro env enter d' address scope q bs) := by
  intro blocks c c' hc
  have hbound : ExceptRel (fun es fs => Value.entriesUnplaced es = Value.entriesUnplaced fs) (d.bindArguments as)
      (d'.bindArguments bs) := by
    have heq := congrArg₂ MacroDef.bindArguments hd hargs
    rw [MacroDef.bindArguments_relocate, MacroDef.bindArguments_relocate] at heq
    exact .of_map_eq heq
  unfold Eval.callMacro
  rw [← hc.depth]
  split
  · exact .failed rfl hc
  · generalize d.bindArguments as = r at hbound
    generalize d'.bindArguments bs = r' at hbound
    cases hbound with
    | error cause => exact .failed rfl hc
    | @ok bindings bindings' hbindings =>
      have hrendering := Eval.Coincide.bind (Eval.Coincide.bindAll hbindings) fun _ _ _ =>
        henter d.body d'.body address (MacroDef.unplaced_body_eq hd)
      have hdeeper : Context.Coincide blocks { c with depth := c.depth + 1 } { c' with depth := c.depth + 1 } :=
        hc.of_eq rfl rfl rfl rfl rfl rfl rfl hc.accesses
      have hcall : Outcome.Coincide blocks id
          (Eval.andThen (Eval.inScope env scope _) (fun e => { e with depth := c.depth })
            { c with depth := c.depth + 1 })
          (Eval.andThen (Eval.inScope env scope _) (fun e => { e with depth := c.depth })
            { c' with depth := c.depth + 1 }) :=
        (Eval.inScope_coincide hr hrendering scope _ _ _ hdeeper).andThen fun _ _ he =>
          he.of_eq rfl rfl rfl rfl rfl rfl rfl he.accesses
      exact hcall.bind fun s t e e' hst he => .done (congrArg Value.string hst) he

include hplaceless hread

/-- Functions that are the same up to places, called with arguments that are, end alike. -/
theorem Eval.call_coincide {f g : Function} (hfg : f.unplaced = g.unplaced) (p q : Position) {as bs : List Argument}
    (hargs : as.map Argument.unplaced = bs.map Argument.unplaced) :
    Eval.Coincide Value.unplaced (Eval.call env enter f p as) (Eval.call env enter g q bs) := by
  have hleft : Action.Relocated Position.toStart (action env p as f)
      (action env .start (as.map Argument.unplaced) f.unplaced) :=
    action_relocated rfl hplaceless.hosts Position.toStart p .start as f
  have hright : Action.Relocated Position.toStart (action env q bs g)
      (action env .start (bs.map Argument.unplaced) g.unplaced) :=
    action_relocated rfl hplaceless.hosts Position.toStart q .start bs g
  rw [← hfg, ← hargs] at hright
  have hnative := inChild_coincide hplaceless.release (perform_coincide hread p q hleft hright)
  cases f with
  | defined d address scope =>
    cases g with
    | defined d' address' scope' =>
      obtain ⟨hd, rfl, rfl⟩ := Function.defined.inj hfg
      exact callMacro_coincide henter hplaceless.release hd address scope p q hargs
    | _ => cases hfg
  | _ =>
    cases g with
    | defined => cases hfg
    | _ => exact hnative

end

end TemplatedSql
