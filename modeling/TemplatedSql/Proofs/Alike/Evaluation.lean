import TemplatedSql.Proofs.Alike.Block
import TemplatedSql.Proofs.Evaluation

/-! # Evaluations in step

Two evaluations of the same node from related contexts end alike: with alike values or the same error, and in
contexts that are related again. More scopes may correspond by then, the roots of templates imported
meanwhile. -/

namespace TemplatedSql

/-- Two environments that an evaluation cannot tell apart: they differ at most in what becomes of a scope when its
    block has ended, and no macro is among the values that both give to names. -/
structure Environment.Alike (renumbered : Renumbered) (marks : Nat → Nat → Prop) (env env' : Environment) : Prop where
  globals : ∀ name, Option.Rel (Value.Alike ⊥ marks) (env.globals.get? name) (env'.globals.get? name)
  overlay : ∀ name, Option.Rel (Value.Alike ⊥ marks) (env.overlay.get? name) (env'.overlay.get? name)
  library : env'.library = env.library
  hosts : env'.hosts = env.hosts
  uniform : ∀ f ∈ env.hosts, f.Uniform renumbered
  forgets : env.Forgets
  forgets' : env'.Forgets
  release : renumbered = .marks → env.discard = Context.release ∧ env'.discard = Context.release

/-! ### Outcomes -/

/-- Ends of the same kind, in contexts with `P`: values with `R` or the same error. -/
inductive Outcome.Alike {α β : Type} (P : Context → Context → Prop) (R : Context → Context → α → β → Prop) :
    Outcome α → Outcome β → Prop
  | done {v w d d'} (hd : P d d') (hv : R d d' v w) : Outcome.Alike P R (.done v d) (.done w d')
  | failed {d d'} (e : TemplateError) (hd : P d d') : Outcome.Alike P R (.failed e d) (.failed e d')
  | exhausted : Outcome.Alike P R .exhausted .exhausted

namespace Outcome.Alike
variable {α β γ δ : Type} {P Q : Context → Context → Prop} {R : Context → Context → α → β → Prop}
  {R' : Context → Context → γ → δ → Prop} {m : Eval α} {m' : Eval β} {c c' : Context}

/-- What follows of the contexts in which both evaluations end. -/
theorem imp {R' : Context → Context → α → β → Prop} (h : Outcome.Alike P R (m c) (m' c'))
    (hd : ∀ d d', (m c).context? = some d → (m' c').context? = some d' → P d d' →
      Q d d' ∧ ∀ v w, R d d' v w → R' d d' v w) : Outcome.Alike Q R' (m c) (m' c') := by
  generalize m c = o at h hd
  generalize m' c' = o' at h hd
  cases h with
  | done h hv =>
    obtain ⟨hq, hr⟩ := hd _ _ rfl rfl h
    exact .done hq (hr _ _ hv)
  | failed e h => exact .failed e (hd _ _ rfl rfl h).1
  | exhausted => exact .exhausted

theorem andThen {R' : Context → Context → α → β → Prop} {f f' : Context → Context}
    (h : Outcome.Alike P R (m c) (m' c'))
    (hd : ∀ d d', (m c).context? = some d → (m' c').context? = some d' → P d d' →
      Q (f d) (f' d') ∧ ∀ v w, R d d' v w → R' (f d) (f' d') v w) :
    Outcome.Alike Q R' (Eval.andThen m f c) (Eval.andThen m' f' c') := by
  unfold Eval.andThen
  generalize m c = o at h hd
  generalize m' c' = o' at h hd
  cases h with
  | done h hv =>
    obtain ⟨hq, hr⟩ := hd _ _ rfl rfl h
    exact .done hq (hr _ _ hv)
  | failed e h => exact .failed e (hd _ _ rfl rfl h).1
  | exhausted => exact .exhausted

theorem mapError (h : Outcome.Alike P R (m c) (m' c')) (f : TemplateError → TemplateError) :
    Outcome.Alike P R (Eval.mapError m f c) (Eval.mapError m' f c') := by
  unfold Eval.mapError
  generalize m c = o at h
  generalize m' c' = o' at h
  cases h with
  | done h hv => exact .done h hv
  | failed e h => exact .failed (f e) h
  | exhausted => exact .exhausted

theorem bind {f : α → Eval γ} {f' : β → Eval δ} (h : Outcome.Alike P R (m c) (m' c'))
    (hf : ∀ v w d d', P d d' → R d d' v w → Outcome.Alike Q R' (f v d) (f' w d'))
    (hfailed : ∀ d d', P d d' → Q d d') : Outcome.Alike Q R' (Eval.bind m f c) (Eval.bind m' f' c') := by
  unfold Eval.bind
  generalize m c = o at h
  generalize m' c' = o' at h
  cases h with
  | done h hv => exact hf _ _ _ _ h hv
  | failed e h => exact .failed e (hfailed _ _ h)
  | exhausted => exact .exhausted

end Outcome.Alike

/-! ### Evaluations -/

/-- Evaluations that end alike from related contexts in which the scopes of `lasting` correspond throughout, with
    values that are in relation `R` by the scopes that do afterwards. -/
def Eval.Alike {α β : Type} (k : Correspondence) (w : View) (lasting : Nat → Nat → Prop)
    (R : (Nat → Nat → Prop) → α → β → Prop) (m : Eval α) (m' : Eval β) : Prop :=
  ∀ c c', RelatedAt k w c c' → lasting ≤ k.lasting c c' →
    Outcome.Alike (fun d d' => RelatedAt k w d d' ∧ k.lasting c c' ≤ k.lasting d d') (fun d d' => R (k.lasting d d'))
      (m c) (m' c')

/-- Values that are alike by the scopes in sight. -/
abbrev View.Values (w : View) (k : Correspondence) (lasting : Nat → Nat → Prop) : Value → Value → Prop :=
  Value.Alike (w.frames ⊔ lasting) k.marks

namespace Eval.Alike
variable {α β γ δ : Type} {k : Correspondence} {w : View} {lasting : Nat → Nat → Prop}
  {R : (Nat → Nat → Prop) → α → β → Prop} {R' : (Nat → Nat → Prop) → γ → δ → Prop} {m : Eval α} {m' : Eval β}

theorem later {more : Nat → Nat → Prop} (h : Eval.Alike k w lasting R m m') (hle : lasting ≤ more) :
    Eval.Alike k w more R m m' :=
  fun c c' hc hmore => h c c' hc (hle.trans hmore)

theorem pure {v : α} {v' : β} (h : ∀ later, lasting ≤ later → R later v v') :
    Eval.Alike k w lasting R (Eval.pure v) (Eval.pure v') :=
  fun _ _ hc hle => .done ⟨hc, le_rfl⟩ (h _ hle)

theorem fail (p : Position) (cause : Cause) : Eval.Alike k w lasting R (Eval.fail p cause) (Eval.fail p cause) :=
  fun _ _ hc _ => .failed _ ⟨hc, le_rfl⟩

theorem update {f f' : Context → Context} (h : ∀ c c', RelatedAt k w c c' → lasting ≤ k.lasting c c' →
      RelatedAt k w (f c) (f' c') ∧ k.lasting c c' ≤ k.lasting (f c) (f' c')) :
    Eval.Alike k w lasting (fun _ => Eq) (Eval.update f) (Eval.update f') :=
  fun c c' hc hle => .done (h c c' hc hle) rfl

theorem context : Eval.Alike k w lasting (fun _ c c' => k.marks c.accesses c'.accesses) Eval.context Eval.context :=
  fun _ _ hc _ => .done ⟨hc, le_rfl⟩ (hc.marks 0)

/-- One evaluation after the other. What holds of the values of the first is known by the scopes that correspond
    when it has ended. -/
theorem bind {f : α → Eval γ} {f' : β → Eval δ} (hm : Eval.Alike k w lasting R m m')
    (hf : ∀ later v v', lasting ≤ later → k.renumbered.Admits (w.frames ⊔ later) k.marks → R later v v' →
      Eval.Alike k w later R' (f v) (f' v')) : Eval.Alike k w lasting R' (m >>= f) (m' >>= f') := by
  intro c c' hc hle
  refine (hm c c' hc hle).bind (fun v v' d d' ⟨hd, hgrow⟩ hv => ?_) fun d d' hd => hd
  exact (hf _ v v' (hle.trans hgrow) hd.admits hv d d' hd le_rfl).imp fun e e' _ _ ⟨he, hmore⟩ =>
    ⟨⟨he, hgrow.trans hmore⟩, fun _ _ hv => hv⟩

/-- An evaluation that may fail by itself. -/
theorem located {a : Except Cause α} {b : Except Cause β} (p : Position) (h : ExceptRel (R lasting) a b)
    (hmono : ∀ later v v', lasting ≤ later → R lasting v v' → R later v v') :
    Eval.Alike k w lasting R (Eval.located p a) (Eval.located p b) := by
  cases h with
  | ok h => exact pure fun later hle => hmono later _ _ hle h
  | error cause => exact fail p cause

/-- Binding alike entries. -/
theorem bindAll {bindings bindings' : Table Value}
    (h : List.Forall₂ (Value.EntryAlike (w.frames ⊔ lasting) k.marks) bindings bindings') :
    Eval.Alike k w lasting (fun _ => Eq) (Eval.update fun c => bindings.foldl (fun c b => c.bind b.1 b.2) c)
      (Eval.update fun c => bindings'.foldl (fun c b => c.bind b.1 b.2) c) := by
  refine update fun c c' hc hle => ⟨hc.bindAll (Value.entriesAlike_mono (sup_le_sup_left hle _) _ h), ?_⟩
  have hframe : ∀ (bindings : Table Value) (c : Context),
      Frame {} Set.univ c (bindings.foldl (fun c b => c.bind b.1 b.2) c) := fun _ c =>
    Frame.bindAll (fun _ _ => Set.mem_univ _) c
  exact lasting_le (hframe bindings c) (hframe bindings' c')

theorem joinAll {f : α → Eval String} {g : β → Eval String} {r : α → β → Prop}
    (hfg : ∀ later a b, lasting ≤ later → r a b → Eval.Alike k w later (fun _ => Eq) (f a) (g b)) {as : List α}
    {bs : List β} (h : List.Forall₂ r as bs) (text : String) :
    Eval.Alike k w lasting (fun _ => Eq) (Eval.joinAll f text as) (Eval.joinAll g text bs) := by
  induction h generalizing lasting text with
  | nil => exact pure fun _ _ => rfl
  | cons hab _ ih =>
    rw [joinAll_cons, joinAll_cons]
    refine bind (hfg lasting _ _ le_rfl hab) fun later s s' hle _ hs => ?_
    subst hs
    exact ih (fun later' a b hle' => hfg later' a b (hle.trans hle')) _

/-- The rounds of a loop. -/
theorem rounds {m m' : Eval String} (hm : ∀ later, lasting ≤ later → Eval.Alike k w later (fun _ => Eq) m m')
    {rounds rounds' : List (Table Value)}
    (h : List.Forall₂ (List.Forall₂ (Value.EntryAlike (w.frames ⊔ lasting) k.marks)) rounds rounds') :
    Eval.Alike k w lasting (fun _ => Eq)
      (Eval.joinAll
        (fun (bindings, round) => do
          Eval.update fun c => bindings.foldl (fun c b => c.bind b.1 b.2) c
          Eval.update fun c => c.bind "loop" (loopInfo round rounds.length)
          m)
        "" rounds.zipIdx)
      (Eval.joinAll
        (fun (bindings, round) => do
          Eval.update fun c => bindings.foldl (fun c b => c.bind b.1 b.2) c
          Eval.update fun c => c.bind "loop" (loopInfo round rounds'.length)
          m')
        "" rounds'.zipIdx) := by
  rw [h.length_eq]
  refine joinAll (fun later a b hle hab => ?_) (forall₂_zipIdx h 0) ""
  obtain ⟨bindings, round⟩ := a
  obtain ⟨bindings', round'⟩ := b
  obtain ⟨hbindings, rfl⟩ := hab
  refine bind (bindAll (Value.entriesAlike_mono (sup_le_sup_left hle _) _ hbindings)) fun _ _ _ hle' _ _ => ?_
  refine bind (update fun c c' hc _ => ⟨hc.bind (loopInfo_alike _ _) "loop", le_rfl⟩) fun _ _ _ hle'' _ _ => ?_
  exact hm _ (hle.trans (hle'.trans hle''))

end Eval.Alike

/-! ### Scopes, imports and calls -/

section
variable {env env' : Environment} {n n' : Nat} {names names' : Set String} {k : Correspondence}
  {frames : Nat → Nat → Prop} {w : View} {lasting : Nat → Nat → Prop} {c c' : Context} {α β : Type}

/-- Evaluations that bind nothing around them leave related contexts in step where they do the lasting scopes. -/
theorem Outcome.Alike.around {R : Context → Context → α → β → Prop} {m : Eval α} {m' : Eval β} (h : RelatedAt k w c c')
    (hm : m.Keeps env n ∅) (hm' : m'.Keeps env' n' ∅) (ho : Outcome.Alike (Related k ⊥) R (m c) (m' c')) :
    Outcome.Alike (fun d d' => RelatedAt k w d d' ∧ k.lasting c c' ≤ k.lasting d d') R (m c) (m' c') :=
  ho.imp fun _ _ hd hd' hlast =>
    ⟨⟨h.around (hm.frame hd) (hm'.frame hd') hlast, lasting_le (hm.frame hd) (hm'.frame hd')⟩, fun _ _ hv => hv⟩

theorem Eval.inScope_alike (henv : env.Alike k.renumbered k.marks env') {R : (Nat → Nat → Prop) → α → β → Prop}
    {m : Eval α} {m' : Eval β} (h : Related k frames c c') (hm : m.Keeps env n names)
    (hm' : m'.Keeps env' n' names') {p q : Nat}
    (hbody : Outcome.Alike (fun d d' => ∃ inner, RelatedAt k ⟨inner, c.arena.length, c'.arena.length⟩ d d')
      (fun d d' => R (k.lasting d d'))
      (m (c.opening (some p))) (m' (c'.opening (some q)))) :
    Outcome.Alike (Related k ⊥) (fun d d' => R (k.lasting d d')) (Eval.inScope env p m c)
      (Eval.inScope env' q m' c') := by
  refine hbody.andThen fun d d' hd hd' ⟨inner, hrel⟩ => ⟨?_, fun v v' hv => ?_⟩
  · exact hrel.forget (fun i j => h.ne_length_of_lasting (hm.frame hd) (hm'.frame hd')) henv.forgets henv.forgets'
      henv.release c.current c'.current
  · rw [lasting_discard henv.forgets henv.forgets']
    exact hv

section
variable {enter enter' : Body → Address → Eval String}
  (henter : ∀ w lasting body address, (w.frames ⊔ lasting) w.left w.right →
    Eval.Alike k w lasting (fun _ => Eq) (enter body address) (enter' body address))
include henter

theorem Eval.importTemplate_alike (h : Related k frames c c') (t : Template) (p : Position) :
    Outcome.Alike (Related k ⊥) (fun d d' => k.lasting d d') (Eval.importTemplate enter t p c)
      (Eval.importTemplate enter' t p c') := by
  have himported := h.imported t.name
  unfold Eval.importTemplate
  cases hi : c.imported.get? t.name with
  | some i =>
    cases hj : c'.imported.get? t.name with
    | some j => exact .done h.lastingOnly (Or.inr ⟨t.name, hi, hj⟩)
    | none =>
      rw [hi, hj] at himported
      cases himported
  | none =>
    cases hj : c'.imported.get? t.name with
    | some j =>
      rw [hi, hj] at himported
      cases himported
    | none =>
      have hbody := henter ⟨⊥, c.arena.length, c'.arena.length⟩ _ t.body ⟨.library t.name, []⟩
        (Or.inr (lasting_root c c' t.name)) (c.importing t.name) (c'.importing t.name) (h.importing hi) le_rfl
      -- The root stands for the template from the start of its rendering.
      have hreset : Outcome.Alike (fun d d' => Related k ⊥ d d' ∧ k.lasting d d' c.arena.length c'.arena.length)
          (fun _ _ => Eq)
          (Eval.andThen (enter t.body ⟨.library t.name, []⟩) (fun d => { d with current := c.current })
            (c.importing t.name))
          (Eval.andThen (enter' t.body ⟨.library t.name, []⟩) (fun d => { d with current := c'.current })
            (c'.importing t.name)) :=
        hbody.andThen fun d d' _ _ ⟨hd, hle⟩ =>
          ⟨⟨{ hd.toRelated with }, hle _ _ (lasting_root c c' t.name)⟩, fun _ _ hv => hv⟩
      exact (hreset.mapError _).bind (fun _ _ _ _ ⟨hd, hroot⟩ _ => .done hd hroot) fun _ _ hd => hd.1

variable (henv : env.Alike k.renumbered k.marks env')
  (hkeeps : ∀ body address, (enter body address).Keeps env n Set.univ)
  (hkeeps' : ∀ body address, (enter' body address).Keeps env' n' Set.univ)
include henv hkeeps hkeeps'

theorem Eval.readVariable_alike (name : String) (p : Position) :
    Eval.Alike k w lasting (w.Values k) (Eval.readVariable env enter name p)
      (Eval.readVariable env' enter' name p) := by
  intro c c' h _
  have hbot : ∀ {a b : Option Value}, Option.Rel (Value.Alike ⊥ k.marks) a b →
      Option.Rel (w.Values k (k.lasting c c')) a b := fun hab => hab.imp fun v _ hv => v.alike_mono bot_le hv
  have hlookup : Option.Rel (w.Values k (k.lasting c c')) (env.lookup c name) (env'.lookup c' name) :=
    (h.find? name).orElse ((hbot (henv.overlay name)).orElse (hbot (henv.globals name)))
  refine Outcome.Alike.around h (Eval.Keeps.readVariable hkeeps name p) (Eval.Keeps.readVariable hkeeps' name p) ?_
  unfold Eval.readVariable
  rcases hlookup.eq_or with ⟨hv, hw⟩ | ⟨v, v', hv, hw, hvw⟩
  · rw [hv, hw, henv.library]
    cases env.library.get? name with
    | none => exact .done h.lastingOnly .undefined
    | some t =>
      refine (importTemplate_alike henter h.toRelated t p).bind (fun i j d d' hd hij => ?_)
        fun d d' hd => hd
      obtain ⟨s, u, hs, hu, halike⟩ := hd.lasting i j hij
      rw [hs, hu]
      exact .done hd (((halike.bindings name).imp fun v _ hv => v.alike_mono le_sup_right hv).getD .undefined)
  · rw [hv, hw]
    exact .done h.lastingOnly hvw

theorem Eval.perform_alike (p : Position) {S : Nat → Nat → Prop} {a b : Action}
    (h : Action.Alike k.renumbered k.marks S a b) : ∀ lasting, S = w.frames ⊔ lasting →
      Eval.Alike k w lasting (w.Values k) (Eval.perform env enter p a) (Eval.perform env' enter' p b) := by
  induction h with
  | finish h =>
    rintro lasting rfl
    exact .pure fun later hle => Value.alike_mono (sup_le_sup_left hle _) _ h
  | fail cause => exact fun _ _ => .fail p cause
  | log message h ih =>
    rintro lasting rfl
    exact .bind (.update fun c c' hc _ => ⟨{ hc with }, le_rfl⟩) fun _ _ _ hle _ _ => (ih lasting rfl).later hle
  | @read S f g name h ih =>
    rintro lasting rfl
    refine .bind (readVariable_alike henter henv hkeeps hkeeps' name p) fun later v v' hle hadmits hv => ?_
    exact ih _ v v' (sup_le_sup_left hle _) hadmits hv later rfl
  | bind name hv h ih =>
    rintro lasting rfl
    exact .bind (.update fun c c' hc hle => ⟨hc.bind (Value.alike_mono (sup_le_sup_left hle _) _ hv) name, le_rfl⟩)
      fun _ _ _ hle _ _ => (ih lasting rfl).later hle

omit henv hkeeps hkeeps' in
theorem Eval.withBindings_alike {w : View} {lasting : Nat → Nat → Prop} (hw : (w.frames ⊔ lasting) w.left w.right)
    {bindings bindings' : Table Value}
    (hbindings : List.Forall₂ (Value.EntryAlike (w.frames ⊔ lasting) k.marks) bindings bindings') (body : Body)
    (address : Address) : Eval.Alike k w lasting (fun _ => Eq)
      (do Eval.update fun c => bindings.foldl (fun c b => c.bind b.1 b.2) c
          enter body address)
      (do Eval.update fun c => bindings'.foldl (fun c b => c.bind b.1 b.2) c
          enter' body address) :=
  .bind (.bindAll hbindings) fun later _ _ hle _ _ => henter w later body address (sup_le_sup_left hle _ _ _ hw)

/-- A macro renders the same text wherever its scope and its arguments are alike, whatever the scopes are that it
    is called in. -/
theorem Eval.callMacro_alike (h : Related k frames c c') (d : MacroDef) (address : Address) {i j : Nat}
    (hij : (frames ⊔ k.lasting c c') i j) (p : Position) {as bs : List Argument}
    (hargs : List.Forall₂ (Argument.Alike (frames ⊔ k.lasting c c') k.marks) as bs) :
    Outcome.Alike (Related k ⊥) (fun _ _ v w => ∃ text, v = .string text ∧ w = .string text)
      (Eval.callMacro env enter d address i p as c) (Eval.callMacro env' enter' d address j p bs c') := by
  have hbound := d.bindArguments_alike hargs
  unfold Eval.callMacro
  rw [h.depth]
  split
  · exact .failed _ h.lastingOnly
  · generalize d.bindArguments as = r at hbound
    generalize d.bindArguments bs = r' at hbound
    cases hbound with
    | error cause => exact .failed _ h.lastingOnly
    | @ok bindings bindings' hbindings =>
      have hdeep : Related k frames { c with depth := c.depth + 1 } { c' with depth := c.depth + 1 } :=
        { h with depth := rfl }
      -- Macros defined by the body may be called inside it, so its scope is in sight until it has been rendered.
      have hrendering := withBindings_alike henter
        (w := .block frames c.arena.length c'.arena.length) (Or.inl (Or.inr ⟨rfl, rfl⟩))
        (Value.entriesAlike_mono (sup_le_sup_right le_sup_left (k.lasting c c')) _ hbindings) d.body address
      have hscope := inScope_alike henv hdeep (.withBindings hkeeps bindings d.body address)
        (.withBindings hkeeps' bindings' d.body address) (p := i) (q := j) (R := fun _ => Eq)
        ((hrendering _ _ (hdeep.block hij) le_rfl).imp fun _ _ _ _ hd => ⟨⟨_, hd.1⟩, fun _ _ hs => hs⟩)
      have hreset : Outcome.Alike (Related k ⊥) (fun _ _ => Eq)
          (Eval.andThen (Eval.inScope env i _) (fun d => { d with depth := c.depth })
            { c with depth := c.depth + 1 })
          (Eval.andThen (Eval.inScope env' j _) (fun d => { d with depth := c.depth })
            { c' with depth := c.depth + 1 }) :=
        hscope.andThen fun d d' _ _ hd => ⟨{ hd with depth := rfl }, fun _ _ hs => hs⟩
      exact hreset.bind (fun text _ d d' hd heq => .done hd ⟨text, rfl, heq ▸ rfl⟩) fun _ _ hd => hd

/-- Alike functions called with alike arguments end alike. -/
theorem Eval.call_alike {w : View} {lasting : Nat → Nat → Prop} (hw : (w.frames ⊔ lasting) w.left w.right)
    {f g : Function} (hfg : f.Alike (w.frames ⊔ lasting) k.marks g) (p : Position) {as bs : List Argument}
    (hargs : List.Forall₂ (Argument.Alike (w.frames ⊔ lasting) k.marks) as bs) :
    Eval.Alike k w lasting (w.Values k) (Eval.call env enter f p as) (Eval.call env' enter' g p bs) := by
  intro c c' hc hle
  have hsub : w.frames ⊔ lasting ≤ w.frames ⊔ k.lasting c c' := sup_le_sup_left hle _
  have hargs' := Argument.allAlike_mono hsub hargs
  refine Outcome.Alike.around hc (.call hkeeps henv.forgets f p as) (.call hkeeps' henv.forgets' g p bs) ?_
  have hnative : ∀ {f g : Function}, f.Alike (w.frames ⊔ lasting) k.marks g → Outcome.Alike (Related k ⊥)
      (fun d d' => w.Values k (k.lasting d d')) (Eval.inChild env (Eval.perform env enter p (Eval.action env p as f)) c)
      (Eval.inChild env' (Eval.perform env' enter' p (Eval.action env' p bs g)) c') := by
    intro f g hfg
    have haction := Eval.action_alike henv.hosts henv.uniform hc.admits p (f.alike_mono hsub hfg) hargs'
    have hcurrent : (w.frames ⊔ k.lasting c c') c.current c'.current := by
      rw [hc.left, hc.right]
      exact hsub _ _ hw
    -- No value remembers the scope of a native call; all that is needed of it is a parent that corresponds.
    have hperform := perform_alike henter henv hkeeps hkeeps' (w := ⟨w.frames, c.arena.length, c'.arena.length⟩) p
      haction (k.lasting c c') rfl
    exact inScope_alike henv hc.toRelated (.perform hkeeps p _) (.perform hkeeps' p _)
      ((hperform _ _ (hc.toRelated.push (.some hcurrent)) le_rfl).imp fun _ _ _ _ hd => ⟨⟨_, hd.1⟩, fun _ _ hv => hv⟩)
  cases hfg with
  | defined d address hij =>
    exact (callMacro_alike henter henv hkeeps hkeeps' hc.toRelated d address (hsub _ _ hij) p hargs').imp
      fun d d' _ _ hd => ⟨hd, by rintro _ _ ⟨text, rfl, rfl⟩; exact .string text⟩
  | builtin b => exact hnative (.builtin b)
  | stringMethod h s m => exact hnative (.stringMethod h s m)
  | mappingMethod h hes m => exact hnative (.mappingMethod h hes m)
  | host key name => exact hnative (.host key name)

end
end
end TemplatedSql
