import TemplatedSql.Proofs.Alike.Evaluation

/-! # Rendering in step

From related contexts in which the current scopes correspond, every expression has alike values and every node
the same text, whatever becomes of the scopes of blocks that have ended. -/

namespace TemplatedSql

section
open Eval
variable {env env' : Environment} {n n' : Nat} {k : Correspondence} {enter enter' : Body → Address → Eval String}

/-- Two ways of rendering bodies that go in step, as the environments do, and keep the frame, each in its own. -/
structure Eval.EntersInStep (k : Correspondence) (env env' : Environment) (n n' : Nat)
    (enter enter' : Body → Address → Eval String) : Prop where
  alike : ∀ w lasting body address, (w.frames ⊔ lasting) w.left w.right →
    Eval.Alike k w lasting (fun _ => Eq) (enter body address) (enter' body address)
  environment : env.Alike k.renumbered k.marks env'
  keeps : ∀ body address, (enter body address).Keeps env n Set.univ
  keeps' : ∀ body address, (enter' body address).Keeps env' n' Set.univ

/-! ### Expressions -/

section
variable {w : View}

mutual

theorem Expr.eval_alike (h : EntersInStep k env env' n n' enter enter') :
    ∀ (e : Expr) {lasting : Nat → Nat → Prop}, (w.frames ⊔ lasting) w.left w.right →
    Eval.Alike k w lasting (w.Values k) (e.eval env enter) (e.eval env' enter')
  | .literal _ v, _, _ => by
    rw [Expr.eval, Expr.eval]
    exact .pure fun _ _ => Value.ofLiteral_alike v
  | .list _ items, _, hw => by
    rw [Expr.eval, Expr.eval]
    refine .bind (Expr.evalAll_alike h items hw) fun _ vs vs' _ _ hvs => .pure fun _ hle => ?_
    exact .list (Value.allAlike_mono (sup_le_sup_left hle _) vs hvs)
  | .name p name, _, _ => by
    rw [Expr.eval, Expr.eval]
    exact readVariable_alike h.alike h.environment h.keeps h.keeps' name p
  | .member _ target name, _, hw => by
    rw [Expr.eval, Expr.eval]
    refine .bind (target.eval_alike h hw) fun _ v v' _ _ hv => .bind .context fun _ c c' hle _ hmarks => ?_
    refine .bind (.update fun d d' hd _ => ⟨{ hd with marks := fun n => ?_ }, le_rfl⟩) fun _ _ _ hle' _ _ => ?_
    · have hnext := hd.marks (n + 1)
      rwa [Nat.add_comm n 1, ← Nat.add_assoc, ← Nat.add_assoc] at hnext
    · exact .pure fun _ hle'' => Value.member_alike hmarks name
        (v.alike_mono (sup_le_sup_left (hle.trans (hle'.trans hle'')) _) hv)
  | .index p target index, _, hw => by
    rw [Expr.eval, Expr.eval]
    refine .bind (target.eval_alike h hw) fun _ v v' hle _ hv => ?_
    refine .bind (index.eval_alike h (sup_le_sup_left hle _ _ _ hw)) fun _ i i' hle' _ hi => ?_
    exact .located p (Value.index_alike (v.alike_mono (sup_le_sup_left hle' _) hv) hi)
      fun _ u _ hle'' hu => u.alike_mono (sup_le_sup_left hle'' _) hu
  | .binary p op left right, _, hw => by
    rw [Expr.eval, Expr.eval]
    refine .bind (left.eval_alike h hw) fun _ a a' hle _ ha => ?_
    have hright := right.eval_alike h (sup_le_sup_left hle w.frames _ _ hw)
    cases op with
    | and =>
      dsimp only
      rw [ha.truthy_eq]
      split
      · exact hright
      · exact .pure fun _ hle' => a.alike_mono (sup_le_sup_left hle' _) ha
    | or =>
      dsimp only
      rw [ha.truthy_eq]
      split
      · exact .pure fun _ hle' => a.alike_mono (sup_le_sup_left hle' _) ha
      · exact hright
    | _ =>
      refine .bind hright fun _ b b' hle' hadmits hb => ?_
      exact .located p (Value.binary_alike hadmits.scopes_biUnique hadmits.marks_biUnique _
        (a.alike_mono (sup_le_sup_left hle' _) ha) hb) fun _ u _ hle'' hu => u.alike_mono (sup_le_sup_left hle'' _) hu
  | .unary p op operand, _, hw => by
    rw [Expr.eval, Expr.eval]
    refine .bind (operand.eval_alike h hw) fun _ v v' _ _ hv => ?_
    cases op with
    | not =>
      dsimp only
      rw [hv.truthy_eq]
      exact .pure fun _ _ => .boolean _
    | neg => exact .located p (Value.negate_alike hv) fun _ u _ hle hu => u.alike_mono (sup_le_sup_left hle _) hu
  | .call p callee arguments, _, hw => by
    rw [Expr.eval, Expr.eval]
    refine .bind (CallArgument.evalAll_alike h arguments hw) fun _ as bs hle _ hargs => ?_
    have hw' := sup_le_sup_left hle w.frames _ _ hw
    refine .bind (callee.eval_alike h hw') fun _ v v' hle' _ hv => ?_
    have hargs' := Argument.allAlike_mono (sup_le_sup_left hle' w.frames) hargs
    cases hv with
    | function hf =>
      exact call_alike h.alike h.environment h.keeps h.keeps' (sup_le_sup_left hle' w.frames _ _ hw') hf p hargs'
    | _ => exact .fail _ _

theorem Expr.evalAll_alike (h : EntersInStep k env env' n n' enter enter') :
    ∀ (es : List Expr) {lasting : Nat → Nat → Prop}, (w.frames ⊔ lasting) w.left w.right →
    Eval.Alike k w lasting (fun later => List.Forall₂ (w.Values k later)) (Expr.evalAll env enter es)
      (Expr.evalAll env' enter' es)
  | [], _, _ => by
    rw [Expr.evalAll, Expr.evalAll]
    exact .pure fun _ _ => .nil
  | e :: es, _, hw => by
    rw [Expr.evalAll, Expr.evalAll]
    refine .bind (e.eval_alike h hw) fun _ v v' hle _ hv => ?_
    refine .bind (Expr.evalAll_alike h es (sup_le_sup_left hle _ _ _ hw)) fun _ vs vs' hle' _ hvs => ?_
    exact .pure fun _ hle'' => .cons (v.alike_mono (sup_le_sup_left (hle'.trans hle'') _) hv)
      (Value.allAlike_mono (sup_le_sup_left hle'' _) vs hvs)

theorem CallArgument.eval_alike (h : EntersInStep k env env' n n' enter enter') :
    ∀ (a : CallArgument) {lasting : Nat → Nat → Prop},
    (w.frames ⊔ lasting) w.left w.right →
    Eval.Alike k w lasting (fun later => Argument.Alike (w.frames ⊔ later) k.marks) (a.eval env enter)
      (a.eval env' enter')
  | ⟨name, e⟩, _, hw => by
    rw [CallArgument.eval, CallArgument.eval]
    refine .bind (e.eval_alike h hw) fun _ v v' _ _ hv => .pure fun _ hle => ?_
    exact .mk name (v.alike_mono (sup_le_sup_left hle _) hv)

theorem CallArgument.evalAll_alike (h : EntersInStep k env env' n n' enter enter') :
    ∀ (as : List CallArgument) {lasting : Nat → Nat → Prop},
    (w.frames ⊔ lasting) w.left w.right →
    Eval.Alike k w lasting (fun later => List.Forall₂ (Argument.Alike (w.frames ⊔ later) k.marks))
      (CallArgument.evalAll env enter as) (CallArgument.evalAll env' enter' as)
  | [], _, _ => by
    rw [CallArgument.evalAll, CallArgument.evalAll]
    exact .pure fun _ _ => .nil
  | a :: as, _, hw => by
    rw [CallArgument.evalAll, CallArgument.evalAll]
    refine .bind (a.eval_alike h hw) fun _ v v' hle _ hv => ?_
    refine .bind (CallArgument.evalAll_alike h as (sup_le_sup_left hle _ _ _ hw)) fun _ vs vs' hle' _ hvs => ?_
    exact .pure fun _ hle'' => Argument.allAlike_mono (sup_le_sup_left hle'' _)
      (.cons (hv.mono (sup_le_sup_left hle' _)) hvs)

end

end

/-! ### Nodes -/

mutual

theorem Node.render_alike (h : EntersInStep k env env' n n' enter enter') (address : Address) (step : Nat) :
    ∀ (node : Node) {w : View} {lasting : Nat → Nat → Prop},
    (w.frames ⊔ lasting) w.left w.right →
    Eval.Alike k w lasting (fun _ => Eq) (node.render env enter address step) (node.render env' enter' address step)
  | .text .., _, _, _ => by
    rw [Node.render, Node.render]
    exact .pure fun _ _ => rfl
  | .output _ expr, _, _, hw => by
    rw [Node.render, Node.render]
    exact .bind (expr.eval_alike h hw) fun _ _ _ _ _ hv => .pure fun _ _ => hv.text_eq
  | .branch _ condition body rest, _, _, hw => by
    rw [Node.render, Node.render]
    refine .bind (condition.eval_alike h hw) fun _ v v' hle _ hv => ?_
    rw [hv.truthy_eq]
    split
    · exact body.render_alike h _ (sup_le_sup_left hle _ _ _ hw)
    · exact rest.render_alike h _ _ (sup_le_sup_left hle _ _ _ hw)
  | .loop p targets iterable body, w, _, hw => by
    rw [Node.render, Node.render]
    refine .bind (iterable.eval_alike h hw) fun later v v' hle _ hv => ?_
    have hrounds := loopRounds_alike p targets iterable hv
    generalize loopRounds p targets iterable v = r at hrounds
    generalize loopRounds p targets iterable v' = r' at hrounds
    cases hrounds with
    | error e => exact fun c c' hc _ => .failed e ⟨hc, le_rfl⟩
    | @ok rounds rounds' hrounds =>
      intro c c' hc hlater
      have hsub : w.frames ⊔ later ≤ w.frames ⊔ k.lasting c c' := sup_le_sup_left hlater _
      have hcurrent : (w.frames ⊔ k.lasting c c') c.current c'.current := by
        rw [hc.left, hc.right]
        exact sup_le_sup_left (hle.trans hlater) _ _ _ hw
      -- All rounds share the scope of the loop, which macros defined in it remember until the loop has ended.
      have hround := Eval.Alike.rounds (w := .block w.frames c.arena.length c'.arena.length)
        (fun later _ => body.render_alike h { address with path := step :: address.path } (Or.inl (Or.inr ⟨rfl, rfl⟩)))
        (hrounds.imp fun _ _ h => Value.entriesAlike_mono (hsub.trans (sup_le_sup_right le_sup_left _)) _ h)
      have hframe := body.render_keeps h.keeps h.environment.forgets ⟨address.origin, step :: address.path⟩
      have hframe' := body.render_keeps h.keeps' h.environment.forgets' ⟨address.origin, step :: address.path⟩
      have hkeep := Keeps.rounds (hframe.mono (Set.subset_univ _)) rounds
      have hkeep' := Keeps.rounds (hframe'.mono (Set.subset_univ _)) rounds'
      refine Outcome.Alike.around hc (.inChild h.environment.forgets hkeep) (.inChild h.environment.forgets' hkeep') ?_
      exact inScope_alike h.environment hc.toRelated hkeep hkeep' (R := fun _ => Eq)
        ((hround _ _ (hc.toRelated.block hcurrent) le_rfl).imp fun _ _ _ _ hd => ⟨⟨_, hd.1⟩, fun _ _ hs => hs⟩)
  | .macroDef d, _, _, hw => by
    rw [Node.render, Node.render]
    refine .bind (.update fun c c' hc hle => ⟨hc.bind ?_ d.name, le_rfl⟩) fun _ _ _ _ _ _ => .pure fun _ _ => rfl
    rw [hc.left, hc.right]
    exact .function (.defined d _ (sup_le_sup_left hle _ _ _ hw))
  | .assign _ name value, _, _, hw => by
    rw [Node.render, Node.render]
    refine .bind (value.eval_alike h hw) fun _ v v' _ _ hv => ?_
    exact .bind (.update fun c c' hc hle => ⟨hc.bind (v.alike_mono (sup_le_sup_left hle _) hv) name, le_rfl⟩)
      fun _ _ _ _ _ _ => .pure fun _ _ => rfl

theorem Alternative.render_alike (h : EntersInStep k env env' n n' enter enter') (address : Address) (arm : Nat) :
    ∀ (rest : Alternative) {w : View} {lasting : Nat → Nat → Prop}, (w.frames ⊔ lasting) w.left w.right →
    Eval.Alike k w lasting (fun _ => Eq) (rest.render env enter address arm) (rest.render env' enter' address arm)
  | .nothing, _, _, _ => by
    rw [Alternative.render, Alternative.render]
    exact .pure fun _ _ => rfl
  | .otherwise body, _, _, hw => by
    rw [Alternative.render, Alternative.render]
    exact body.render_alike h _ hw
  | .elseIf condition body rest, _, _, hw => by
    rw [Alternative.render, Alternative.render]
    refine .bind (condition.eval_alike h hw) fun _ v v' hle _ hv => ?_
    rw [hv.truthy_eq]
    split
    · exact body.render_alike h _ (sup_le_sup_left hle _ _ _ hw)
    · exact rest.render_alike h _ _ (sup_le_sup_left hle _ _ _ hw)

theorem Body.render_alike (h : EntersInStep k env env' n n' enter enter') (address : Address) :
    ∀ (body : Body) {w : View} {lasting : Nat → Nat → Prop},
    (w.frames ⊔ lasting) w.left w.right →
    Eval.Alike k w lasting (fun _ => Eq) (body.render env enter address) (body.render env' enter' address)
  | ⟨_, nodes⟩, _, _, hw => by
    rw [Body.render, Body.render]
    exact Node.renderAll_alike h address 0 "" nodes hw

theorem Node.renderAll_alike (h : EntersInStep k env env' n n' enter enter') (address : Address) (step : Nat)
    (text : String) :
    ∀ (nodes : List Node) {w : View} {lasting : Nat → Nat → Prop}, (w.frames ⊔ lasting) w.left w.right →
    Eval.Alike k w lasting (fun _ => Eq) (Node.renderAll env enter address step text nodes)
      (Node.renderAll env' enter' address step text nodes)
  | [], _, _, _ => by
    rw [Node.renderAll, Node.renderAll]
    exact .pure fun _ _ => rfl
  | node :: nodes, _, _, hw => by
    have hnode := node.render_alike h address step hw
    cases node with
    | text p more =>
      rw [Node.renderAll, Node.renderAll]
      exact Node.renderAll_alike h address step (text ++ more) nodes hw
    | _ =>
      rw [Node.renderAll, Node.renderAll]
      · refine .bind hnode fun _ s s' hle _ hs => ?_
        subst hs
        exact Node.renderAll_alike h address (step + 1) (text ++ s) nodes (sup_le_sup_left hle _ _ _ hw)
      · simp
      · simp

end

end

/-- Two environments that differ at most in what becomes of scopes render a body alike. -/
theorem renderBody_alike {env env' : Environment} {k : Correspondence} (henv : env.Alike k.renumbered k.marks env')
    (n : Nat) (w : View) (lasting : Nat → Nat → Prop) (body : Body) (address : Address)
    (hw : (w.frames ⊔ lasting) w.left w.right) :
    Eval.Alike k w lasting (fun _ => Eq) (renderBody env n body address) (renderBody env' n body address) := by
  induction n generalizing w lasting body address with
  | zero => exact fun _ _ _ _ => .exhausted
  | succ n ih =>
    exact body.render_alike ⟨ih, henv, renderBody_keeps henv.forgets n, renderBody_keeps henv.forgets' n⟩ address hw

end TemplatedSql
