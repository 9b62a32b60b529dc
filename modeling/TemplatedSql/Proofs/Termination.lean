import TemplatedSql.Proofs.Coverage

/-! # Every rendering ends

The allowance for nested bodies is never used up, so a rendering ends with a text or an error, and no larger
allowance changes it. At every moment of it the walk for a name ends, since a scope only names an earlier one as
its parent, and at most as many bodies of macros are being rendered inside one another as the limit allows. A call
is refused at the limit and nowhere else. -/

namespace TemplatedSql

namespace Arena

/-- The walk for a name from a scope outward, with what it ends with. -/
inductive Walk (arena : Arena) (name : String) : Nat → Option Value → Prop
  | empty {i} (h : arena.scope? i = none) : Walk arena name i none
  | found {i s v} (h : arena.scope? i = some s) (hv : s.bindings.get? name = some v) : Walk arena name i (some v)
  | root {i s} (h : arena.scope? i = some s) (hv : s.bindings.get? name = none) (hp : s.parent = none) :
    Walk arena name i none
  | outward {i s p r} (h : arena.scope? i = some s) (hv : s.bindings.get? name = none) (hp : s.parent = some p)
    (hw : Walk arena name p r) : Walk arena name i r

variable {arena : Arena} {name : String}

theorem Descends.walk_findFrom (h : arena.Descends) (fuel : Nat) :
    ∀ i, i < fuel → Walk arena name i (arena.findFrom name fuel i) := by
  induction fuel with
  | zero => exact fun i hi => absurd hi (Nat.not_lt_zero i)
  | succ fuel ih =>
    intro i hi
    rw [findFrom]
    cases hs : arena.scope? i with
    | none => exact .empty hs
    | some s =>
      dsimp only
      cases hv : s.bindings.get? name with
      | some v => exact .found hs hv
      | none =>
        cases hp : s.parent with
        | none => exact .root hs hv hp
        | some p => exact .outward hs hv hp (ih p (Nat.lt_of_lt_of_le (h i s p hs hp) (Nat.le_of_lt_succ hi)))

/-- Where parents are earlier scopes, every walk ends, and with what looking the name up gives. -/
theorem Descends.walk (h : arena.Descends) (i : Nat) : Walk arena name i (arena.find? i name) := by
  by_cases hi : i < arena.length
  · exact h.walk_findFrom arena.length i hi
  · have hempty := scope?_of_length_le (Nat.le_of_not_lt hi)
    have hnone : arena.find? i name = none := by
      rw [find?]
      cases arena.length with
      | zero => rfl
      | succ n => rw [findFrom, hempty]
    rw [hnone]
    exact .empty hempty

end Arena

/-! ### The rendering of a template -/

/-- Whatever rendering bodies would give, the call of a macro fails at once since too many are being rendered. -/
def Eval.Refused (env : Environment) (definition : MacroDef) (address : Address) (scope : Nat) (p : Position)
    (arguments : List Argument) (c : Context) : Prop :=
  ∀ enter, Eval.call env enter (.defined definition address scope) p arguments c =
    .failed ⟨p, .recursionLimit maxCallDepth⟩ c

theorem Eval.refused_iff {env : Environment} {definition : MacroDef} {address : Address} {scope : Nat} {p : Position}
    {arguments : List Argument} {c : Context} :
    Eval.Refused env definition address scope p arguments c ↔ maxCallDepth ≤ c.depth := by
  constructor
  · intro h
    by_contra hdepth
    obtain ⟨_, _, _, hbody⟩ := Eval.call_recursionLimit (Nat.lt_of_not_le hdepth) (h fun _ _ => Eval.pure "")
    cases hbody
  · exact fun hdepth enter => Eval.call_of_limit_le hdepth

/-- The context in which a template is rendered that is the first one of a new context. -/
def Context.rendering : Context :=
  { Context.initial with given := 1 }

/-- While a template is rendered in a new context, the rendering comes to an activity in a context, with so many
    bodies of macros being rendered inside one another. -/
def Body.ComesTo (env : Environment) (body : Body) (n : Nat) (a : Activity) (c : Context) : Prop :=
  Activity.Within env (.nodes ⟨.given 0, []⟩ 0 body.nodes) Context.rendering n a c

/-- Every rendering of a template in a new context ends, with a text or an error: the allowance is not used up, and
    with any larger one the rendering is the same. Whatever the rendering comes to, at most as many bodies of macros
    are being rendered inside one another as the limit allows, and every walk along the scopes for a name ends with
    what looking the name up gives. A call of a macro is refused there exactly if the limit has been reached; where
    it has not, an error that says so is one of the rendering of the body, with one more body being rendered. Bodies
    that the rendering does not come to have no influence on it. -/
theorem rendering_ends_within_limit {env : Environment} (hr : env.discard = Context.release)
    (hglobals : ∀ name v, env.globals.get? name = some v → v.scopes = [])
    (hoverlay : ∀ name v, env.overlay.get? name = some v → v.scopes = [])
    (huniform : ∀ f ∈ env.hosts, f.Uniform .scopes) (body : Body) :
    (∃ r, (Session.render env body Context.initial).result? = some r) ∧
    (∀ allowance, env.allowance ≤ allowance →
      renderBody env allowance body ⟨.given 0, []⟩ Context.rendering = Session.render env body Context.initial) ∧
    (∀ n a c, body.ComesTo env n a c →
      n ≤ 100 ∧ c.depth = n ∧ (∀ name i, Arena.Walk c.arena name i (c.arena.find? i name)) ∧
      ∀ definition address scope p arguments, a = .call (.defined definition address scope) p arguments →
        (Eval.Refused env definition address scope p arguments c ↔ n = 100) ∧
        (n < 100 → ∀ q limit d,
          Eval.call env env.enter (.defined definition address scope) p arguments c =
            .failed ⟨q, .recursionLimit limit⟩ d →
          ∃ b e, body.ComesTo env (n + 1) (.nodes address 0 definition.body.nodes) b ∧
            env.enter definition.body address b = .failed ⟨q, .recursionLimit limit⟩ e)) ∧
    ∀ enter : Body → Address → Eval String,
      (∀ n inner address c, body.ComesTo env n (.nodes address 0 inner.nodes) c →
        enter inner address c = env.enter inner address c) →
      body.render env enter ⟨.given 0, []⟩ Context.rendering = Session.render env body Context.initial := by
  have hf := Environment.forgets_release hr
  have henv : env.Alike .scopes Eq env := Environment.alike_of_discard hglobals hoverlay huniform hf hf
  have hstart : Activity.Sound 0 (.nodes ⟨.given 0, []⟩ 0 body.nodes) Context.rendering :=
    ⟨rfl, Nat.zero_le _, _, relatedAt_initial 1, Or.inl (Or.inr ⟨rfl, rfl⟩)⟩
  refine ⟨?_, fun allowance h => ?_, fun n a c hwithin => ?_, fun enter henter => ?_⟩
  · obtain ⟨d, hd⟩ := (Session.render_keeps hf body).ends (Nat.lt_succ_of_lt (env.room_lt_allowance Context.initial))
    exact Outcome.result?_isSome hd
  · exact (congrFun (Environment.enter_eq_renderBody hf h body ⟨.given 0, []⟩) Context.rendering).symm
  · have hsound := hstart.within hf henv hwithin
    obtain ⟨w, hrelated, -⟩ := hsound.view
    refine ⟨hsound.limit, hsound.depth, fun name i => hrelated.shape.1.walk i, ?_⟩
    rintro definition address scope p arguments rfl
    constructor
    · rw [Eval.refused_iff, hsound.depth]
      exact ⟨fun h => Nat.le_antisymm hsound.limit h, fun h => Nat.le_of_eq h.symm⟩
    · intro hn q limit d hcall
      have hdepth : c.depth < maxCallDepth := lt_of_eq_of_lt hsound.depth hn
      obtain ⟨bindings, e, hb, hbody⟩ := Eval.call_recursionLimit hdepth hcall
      exact ⟨_, e, hwithin.step (.entered hdepth hb), hbody⟩
  · rw [body.render_covered henter ⟨.given 0, []⟩ .refl, ← Environment.enter_eq hf]
    rfl

/-- A macro that calls itself: the call is refused where the macro is being rendered a hundred times. -/
theorem rendering_ends_within_limit_of_self_call :
    let p : Position := ⟨1, 1⟩
    let q : Position := ⟨1, 20⟩
    let body : Body := ⟨p, [.macroDef ⟨p, "m", [], ⟨q, [.output q (.call q (.name q "m") [])]⟩⟩,
      .output p (.call p (.name p "m") [])]⟩
    let env : Environment := { globals := Environment.builtins }
    env.discard = Context.release ∧ (∀ name v, env.globals.get? name = some v → v.scopes = []) ∧
      (Session.render env body Context.initial).result? = some (.error ⟨q, .recursionLimit 100⟩) ∧
      renderBody env 200 body ⟨.given 0, []⟩ Context.rendering = Session.render env body Context.initial := by
  intro p q body env
  have hglobals : ∀ name v, env.globals.get? name = some v → v.scopes = [] := by
    intro name v hv
    obtain ⟨b, -, hb⟩ := List.mem_map.mp (Table.mem_of_get? hv)
    cases hb
    rfl
  have hr : env.discard = Context.release := rfl
  have hends := rendering_ends_within_limit hr hglobals (fun _ _ h => by cases h) (fun f h => by cases h) body
  exact ⟨hr, hglobals, by decide +kernel, hends.2.1 200 (by decide)⟩

end TemplatedSql
