import TemplatedSql.Proofs.Grammar.Accept
import TemplatedSql.Proofs.Relocation.Tree

/-! # The places in a parsed tree

Every place that a parsed tree keeps is the start of a token that it was parsed from. -/

namespace TemplatedSql

open TemplatedSql.Grammar

namespace Grammar

variable {P : Position → Prop}

mutual

theorem Expression.places : ∀ {l : Parser.Level} (d : Expression l), (∀ t ∈ d.tokens, P t.start) →
    ∀ p ∈ d.tree.places, P p
  | _, .not sign operand, h | _, .minus sign operand, h => by
    simp only [Expression.tokens, Expression.tree, Expr.places, List.forall_mem_cons] at h ⊢
    exact ⟨h.1, operand.places h.2⟩
  | _, .plus sign operand, h => by
    simp only [Expression.tokens, Expression.tree, List.forall_mem_cons] at h ⊢
    exact operand.places h.2
  | _, .chain hl first more, h => by
    simp only [Expression.tokens, Expression.tree, List.forall_mem_append] at h ⊢
    exact more.places h.2 (first.places h.1)
  | _, .applied target postfixes, h => by
    simp only [Expression.tokens, Expression.tree, List.forall_mem_append] at h ⊢
    exact postfixes.places h.2 (target.places h.1)

theorem Chain.places : ∀ {l : Parser.Level} (d : Chain l) {left : Expr}, (∀ t ∈ d.tokens, P t.start) →
    (∀ p ∈ left.places, P p) → ∀ p ∈ (d.tree left).places, P p
  | _, .nil, left, _, hleft => by
    rw [Chain.tree]
    exact hleft
  | _, .cons operator right more, left, h, hleft => by
    simp only [Chain.tokens, Chain.tree, List.forall_mem_append] at h ⊢
    refine more.places h.2.2 ?_
    simp only [Expr.places, List.forall_mem_cons, List.forall_mem_append]
    refine ⟨?_, hleft, right.places h.2.1⟩
    cases operator with
    | word t op hop => exact h.1 t (List.mem_singleton_self t)
    | notIn sign last hl => exact h.1 last.val (List.mem_cons_of_mem _ (List.mem_singleton_self _))

theorem Primary.places : ∀ (d : Primary), (∀ t ∈ d.tokens, P t.start) → ∀ p ∈ d.tree.places, P p
  | .number _, h | .string _, h | .trueWord _, h | .falseWord _, h | .name _, h => by
    simp only [Primary.tokens, Primary.tree, Expr.places, List.forall_mem_singleton] at h ⊢
    exact h
  | .paren opening inner closing, h => by
    simp only [Primary.tokens, Primary.tree, List.forall_mem_cons, List.forall_mem_append] at h ⊢
    exact inner.places h.2.1
  | .list opening items, h => by
    simp only [Primary.tokens, Primary.tree, Expr.places, List.forall_mem_cons] at h ⊢
    exact ⟨h.1, items.places h.2⟩

theorem Postfixes.places : ∀ (d : Postfixes) {target : Expr}, (∀ t ∈ d.tokens, P t.start) →
    (∀ p ∈ target.places, P p) → ∀ p ∈ (d.tree target).places, P p
  | .nil, target, _, htarget => by
    rw [Postfixes.tree]
    exact htarget
  | .call opening arguments more, target, h, htarget => by
    simp only [Postfixes.tokens, Postfixes.tree, List.forall_mem_cons, List.forall_mem_append] at h ⊢
    refine more.places h.2.2 ?_
    simp only [Expr.places, List.forall_mem_cons, List.forall_mem_append]
    exact ⟨htarget _ target.position_mem_places, htarget, arguments.places h.2.1⟩
  | .index opening index closing more, target, h, htarget => by
    simp only [Postfixes.tokens, Postfixes.tree, List.forall_mem_cons, List.forall_mem_append] at h ⊢
    refine more.places h.2.2.2 ?_
    simp only [Expr.places, List.forall_mem_cons, List.forall_mem_append]
    exact ⟨h.1, htarget, index.places h.2.1⟩
  | .member dot name more, target, h, htarget => by
    simp only [Postfixes.tokens, Postfixes.tree, List.forall_mem_cons] at h ⊢
    refine more.places h.2.2 ?_
    simp only [Expr.places, List.forall_mem_cons]
    exact ⟨h.2.1, htarget⟩

theorem Arguments.places : ∀ {seen : List String} (d : Arguments seen), (∀ t ∈ d.tokens, P t.start) →
    ∀ p ∈ CallArgument.placesOf d.trees, P p
  | _, .close closing, _ => by
    simp only [Arguments.trees, CallArgument.placesOf]
    exact List.forall_mem_nil _
  | _, .positional value more, h => by
    simp only [Arguments.tokens, Arguments.trees, CallArgument.placesOf, CallArgument.places,
      List.forall_mem_append] at h ⊢
    exact ⟨value.places h.1, more.places h.2⟩
  | _, .named name sign hseen value more, h => by
    simp only [Arguments.tokens, Arguments.trees, CallArgument.placesOf, CallArgument.places,
      List.forall_mem_cons, List.forall_mem_append] at h ⊢
    exact ⟨value.places h.2.2.1, more.places h.2.2.2⟩

theorem MoreArguments.places : ∀ {seen : List String} (d : MoreArguments seen), (∀ t ∈ d.tokens, P t.start) →
    ∀ p ∈ CallArgument.placesOf d.trees, P p
  | _, .close closing, _ => by
    simp only [MoreArguments.trees, CallArgument.placesOf]
    exact List.forall_mem_nil _
  | _, .comma comma arguments, h => by
    simp only [MoreArguments.tokens, MoreArguments.trees, List.forall_mem_cons] at h ⊢
    exact arguments.places h.2

theorem Items.places : ∀ (d : Items), (∀ t ∈ d.tokens, P t.start) → ∀ p ∈ Expr.placesOf d.trees, P p
  | .close closing, _ => by
    simp only [Items.trees, Expr.placesOf]
    exact List.forall_mem_nil _
  | .item value more, h => by
    simp only [Items.tokens, Items.trees, Expr.placesOf, List.forall_mem_append] at h ⊢
    exact ⟨value.places h.1, more.places h.2⟩

theorem MoreItems.places : ∀ (d : MoreItems), (∀ t ∈ d.tokens, P t.start) → ∀ p ∈ Expr.placesOf d.trees, P p
  | .close closing, _ => by
    simp only [MoreItems.trees, Expr.placesOf]
    exact List.forall_mem_nil _
  | .comma comma items, h => by
    simp only [MoreItems.tokens, MoreItems.trees, List.forall_mem_cons] at h ⊢
    exact items.places h.2

end

/-- A body is placed at its first token, or at the token after it. -/
theorem Nodes.position_body (d : Nodes) (next : Token) (h : ∀ t ∈ d.tokens, P t.start) (hnext : P next.start) :
    P (d.body next).position := by
  rw [Nodes.body]
  cases htokens : d.tokens with
  | nil => exact hnext
  | cons t ts => exact h t (by rw [htokens]; exact List.mem_cons_self)

theorem Alternative.opening_mem_tokens (d : Alternative) : d.opening ∈ d.tokens := by
  cases d <;> simp [Alternative.opening, Alternative.tokens, WordTag.tokens]

mutual

theorem Nodes.places : ∀ (d : Nodes), (∀ t ∈ d.tokens, P t.start) → ∀ p ∈ Node.placesOf d.trees, P p
  | .nil, _ => by
    simp only [Nodes.trees, Node.placesOf]
    exact List.forall_mem_nil _
  | .text t more, h => by
    simp only [Nodes.tokens, Nodes.trees, Node.placesOf, Node.places, List.cons_append, List.nil_append,
      List.forall_mem_cons] at h ⊢
    exact ⟨h.1, more.places h.2⟩
  | .blank t more, h | .comment t more, h => by
    simp only [Nodes.tokens, Nodes.trees, List.forall_mem_cons] at h ⊢
    exact more.places h.2
  | .output opening expr closing more, h => by
    simp only [Nodes.tokens, Nodes.trees, Node.placesOf, Node.places, List.forall_mem_cons,
      List.forall_mem_append] at h ⊢
    exact ⟨⟨h.1, expr.places h.2.1⟩, more.places h.2.2.2⟩
  | .statement opening statement more, h => by
    simp only [Nodes.tokens, Nodes.trees, Node.placesOf, List.forall_mem_cons, List.forall_mem_append] at h ⊢
    exact ⟨statement.places h.2.1, more.places h.2.2⟩

theorem Nodes.placesOfBody (d : Nodes) (next : Token) (h : ∀ t ∈ d.tokens, P t.start) (hnext : P next.start) :
    ∀ p ∈ (d.body next).places, P p := by
  have hposition := d.position_body next h hnext
  rw [Nodes.body] at hposition ⊢
  simp only [Body.places, List.forall_mem_cons]
  exact ⟨hposition, d.places h⟩

theorem Statement.places : ∀ (d : Statement), (∀ t ∈ d.tokens, P t.start) → ∀ p ∈ d.tree.places, P p
  | .branch word condition closing body rest, h => by
    simp only [Statement.tokens, Statement.tree, Node.places, List.forall_mem_cons, List.forall_mem_append] at h ⊢
    have hrest := h.2.2.2.2
    exact ⟨h.1, ⟨condition.places h.2.1,
      body.placesOfBody rest.opening h.2.2.2.1 (hrest _ rest.opening_mem_tokens)⟩, rest.places hrest⟩
  | .loop word names sign iterable closing body last, h => by
    simp only [Statement.tokens, Statement.tree, Node.places, List.forall_mem_cons, List.forall_mem_append] at h ⊢
    exact ⟨h.1, iterable.places h.2.2.2.1,
      body.placesOfBody last.opening h.2.2.2.2.2.1 (h.2.2.2.2.2.2 _ List.mem_cons_self)⟩
  | .macroDef word name paren parameters closing body last, h => by
    simp only [Statement.tokens, Statement.tree, Node.places, MacroDef.places, List.forall_mem_cons,
      List.forall_mem_append] at h ⊢
    exact ⟨h.1, body.placesOfBody last.opening h.2.2.2.2.2.1 (h.2.2.2.2.2.2 _ List.mem_cons_self)⟩
  | .assign word name sign value closing, h => by
    simp only [Statement.tokens, Statement.tree, Node.places, List.forall_mem_cons, List.forall_mem_append] at h ⊢
    exact ⟨h.1, value.places h.2.2.2.1⟩

theorem Alternative.places : ∀ (d : Alternative), (∀ t ∈ d.tokens, P t.start) → ∀ p ∈ d.tree.places, P p
  | .nothing last, _ => by
    simp only [Alternative.tree, TemplatedSql.Alternative.places]
    exact List.forall_mem_nil _
  | .otherwise tag body last, h => by
    simp only [Alternative.tokens, Alternative.tree, TemplatedSql.Alternative.places, List.forall_mem_append] at h ⊢
    exact body.placesOfBody last.opening h.2.1 (h.2.2 _ List.mem_cons_self)
  | .elseIf opening word condition closing body rest, h => by
    simp only [Alternative.tokens, Alternative.tree, TemplatedSql.Alternative.places, List.forall_mem_cons,
      List.forall_mem_append] at h ⊢
    have hrest := h.2.2.2.2.2
    exact ⟨⟨condition.places h.2.2.1,
      body.placesOfBody rest.opening h.2.2.2.2.1 (hrest _ rest.opening_mem_tokens)⟩, rest.places hrest⟩

end

end Grammar

/-- Every place that the tree of a source keeps is the start of one of the tokens of the source. -/
theorem Body.places_of_ofSource {source : String} {body : Body} (h : Body.ofSource source = .ok body) :
    ∃ tokens, Token.scan source = .ok tokens ∧ ∀ p ∈ body.places, ∃ t ∈ tokens, t.start = p := by
  obtain ⟨d, stop, hscan, -, -, rfl⟩ := Body.derivation_of_ofSource h
  refine ⟨_, hscan, d.placesOfBody stop (fun t ht => ⟨t, List.mem_append_left _ ht, rfl⟩) ?_⟩
  exact ⟨stop, List.mem_append_right _ (List.mem_singleton_self _), rfl⟩

end TemplatedSql
