import TemplatedSql.Proofs.Grammar.Lookahead
import TemplatedSql.Proofs.Grammar.Reads

/-! # What is derivable is read

The parser reads the tokens of every derivation and makes its tree of them, provided that what comes after does not
go on with the derived part. The recursion is on the derivation. -/

namespace TemplatedSql.Grammar

open TemplatedSql.Parser

variable {stop : Position}

mutual

theorem Expression.read : ∀ {l : Level} (d : Expression l) {ts : List Token}, Stops l ts →
    Reads (level stop l (d.tokens ++ ts)) d.tree ts
  | _, .not sign operand, ts, h => by
    rw [Expression.tokens, Expression.tree, List.cons_append, reads_level_cons, sign.property]
    exact ⟨operand.tree, rfl, operand.read h⟩
  | _, .minus sign operand, ts, h => by
    rw [Expression.tokens, Expression.tree, List.cons_append, reads_level_cons, sign.property]
    exact ⟨operand.tree, rfl, operand.read h⟩
  | _, .plus sign operand, ts, h => by
    rw [Expression.tokens, Expression.tree, List.cons_append, reads_level_cons, sign.property]
    exact operand.read h
  | l, .chain hl first more, ts, h => by
    obtain ⟨t, us, hfirst, ht⟩ := first.head_kind
    have hread : Reads (level stop l.next (first.tokens ++ (more.tokens ++ ts))) first.tree (more.tokens ++ ts) :=
      first.read (more.stops hl h)
    rw [Expression.tokens, Expression.tree, List.append_assoc]
    rw [hfirst, List.cons_append] at hread ⊢
    rw [reads_level_cons, sign?_of_starts_next hl ht]
    exact (reads_operation hl).mpr ⟨_, _, hread, more.read hl h⟩
  | _, .applied target postfixes, ts, h => by
    obtain ⟨t, us, htarget, ht⟩ := target.head_kind
    have hread :
        Reads (primary stop (target.tokens ++ (postfixes.tokens ++ ts))) target.tree (postfixes.tokens ++ ts) :=
      target.read _
    rw [Expression.tokens, Expression.tree, List.append_assoc]
    rw [htarget, List.cons_append] at hread ⊢
    rw [reads_level_cons]
    exact reads_operation_operand.mpr ⟨_, _, hread, postfixes.read h⟩

theorem Chain.read : ∀ {l : Level} (d : Chain l) (_ : l ≠ .operand) {left : Expr} {ts : List Token}, Stops l ts →
    Reads (chain stop l left (d.tokens ++ ts)) (d.tree left) ts
  | l, .nil, _, left, ts, h => by
    rw [Chain.tokens, Chain.tree, List.nil_append, reads_chain, h.operator l (Nat.le_refl _)]
    exact ⟨rfl, rfl⟩
  | l, .cons operator right more, hl, left, ts, h => by
    obtain ⟨hshort, hoperator⟩ := operator?_append operator (right.tokens ++ (more.tokens ++ ts))
    rw [Chain.tokens, Chain.tree, List.append_assoc, List.append_assoc, reads_chain, hoperator]
    exact ⟨_, _, right.read (more.stops hl h), more.read hl h⟩

theorem Primary.read : ∀ (d : Primary) (ts : List Token), Reads (primary stop (d.tokens ++ ts)) d.tree ts
  | .number numeral, ts => by
    rw [Primary.tokens, Primary.tree, List.cons_append, reads_primary_cons, numeral.token.property]
    exact ⟨_, numeral.reads, rfl, rfl⟩
  | .string t, ts | .trueWord t, ts | .falseWord t, ts | .name t, ts => by
    rw [Primary.tokens, Primary.tree, List.cons_append, reads_primary_cons, t.property]
    exact ⟨rfl, rfl⟩
  | .paren opening inner closing, ts => by
    rw [Primary.tokens, Primary.tree, List.cons_append, reads_primary_cons, opening.property, List.append_assoc]
    have hclose : Stops .or (closing.val :: ts) := stops_word closing (by decide)
    exact ⟨_, inner.read hclose, closing.val, rfl, closing.property⟩
  | .list opening items, ts => by
    rw [Primary.tokens, Primary.tree, List.cons_append, reads_primary_cons, opening.property]
    exact ⟨_, rfl, items.read ts⟩

theorem Postfixes.read : ∀ (d : Postfixes) {target : Expr} {ts : List Token}, Stops .operand ts →
    Reads (postfixes stop target (d.tokens ++ ts)) (d.tree target) ts
  | .nil, target, ts, h => by
    rw [Postfixes.tokens, Postfixes.tree, List.nil_append]
    cases ts with
    | nil => exact reads_postfixes_nil.mpr ⟨rfl, rfl⟩
    | cons t ts =>
      have ht := h.postfixes t rfl
      rw [reads_postfixes_cons]
      split
      · rename_i hk
        exact absurd (by rw [hk]; decide) ht
      · rename_i hk
        exact absurd (by rw [hk]; decide) ht
      · rename_i hk
        exact absurd (by rw [hk]; decide) ht
      · exact ⟨rfl, rfl⟩
  | .call opening arguments more, target, ts, h => by
    rw [Postfixes.tokens, Postfixes.tree, List.cons_append, List.append_assoc, reads_postfixes_cons, opening.property]
    exact ⟨_, _, arguments.read _, more.read h⟩
  | .index opening index closing more, target, ts, h => by
    rw [Postfixes.tokens, Postfixes.tree, List.cons_append, List.append_assoc, reads_postfixes_cons, opening.property]
    have hclose : Stops .or (closing.val :: (more.tokens ++ ts)) := stops_word closing (by decide)
    exact ⟨_, _, index.read hclose, _, _, ⟨rfl, closing.property⟩, more.read h⟩
  | .member dot name more, target, ts, h => by
    rw [Postfixes.tokens, Postfixes.tree, List.cons_append, reads_postfixes_cons, dot.property]
    exact ⟨_, _, ⟨rfl, name.property⟩, more.read h⟩

theorem Arguments.read : ∀ {seen : List String} (d : Arguments seen) (ts : List Token),
    Reads (callArguments stop seen (d.tokens ++ ts)) d.trees ts
  | _, .close closing, ts => by
    rw [Arguments.tokens, Arguments.trees, List.cons_append, reads_callArguments_cons, if_pos closing.property]
    exact ⟨rfl, rfl⟩
  | _, .positional value more, ts => by
    obtain ⟨t, us, hvalue, ht⟩ := value.head_kind
    have hread : Reads (level stop .or (value.tokens ++ (more.tokens ++ ts))) value.tree (more.tokens ++ ts) :=
      value.read (more.stops ts)
    have hname := argumentName?_positional value more ts
    rw [Arguments.tokens, Arguments.trees, List.append_assoc]
    rw [hvalue, List.cons_append] at hread hname ⊢
    rw [reads_callArguments_cons, if_neg (ne_of_starts ht).1, hname]
    exact ⟨_, _, hread, _, rfl, more.read ts⟩
  | _, .named name sign hseen value more, ts => by
    obtain ⟨hshort, hname⟩ := argumentName?_of_kinds name.property sign.property (value.tokens ++ (more.tokens ++ ts))
    have hparen : name.val.kind ≠ .rightParen := by
      rw [name.property]
      decide
    rw [Arguments.tokens, Arguments.trees, List.cons_append, List.cons_append, List.append_assoc,
      reads_callArguments_cons, if_neg hparen, hname]
    exact ⟨hseen, _, _, value.read (more.stops ts), _, rfl, more.read ts⟩

theorem MoreArguments.read : ∀ {seen : List String} (d : MoreArguments seen) (ts : List Token),
    Reads (moreArguments stop seen (d.tokens ++ ts)) d.trees ts
  | _, .close closing, ts => by
    have hcomma : closing.val.kind ≠ .comma := by
      rw [closing.property]
      decide
    rw [MoreArguments.tokens, MoreArguments.trees, List.cons_append, reads_moreArguments_cons, if_neg hcomma]
    exact ⟨rfl, closing.property, rfl⟩
  | _, .comma comma arguments, ts => by
    rw [MoreArguments.tokens, MoreArguments.trees, List.cons_append, reads_moreArguments_cons, if_pos comma.property]
    exact arguments.read ts

theorem Items.read : ∀ (d : Items) (ts : List Token), Reads (listItems stop (d.tokens ++ ts)) d.trees ts
  | .close closing, ts => by
    rw [Items.tokens, Items.trees, List.cons_append, reads_listItems_cons, if_pos closing.property]
    exact ⟨rfl, rfl⟩
  | .item value more, ts => by
    obtain ⟨t, us, hvalue, ht⟩ := value.head_kind
    have hread : Reads (level stop .or (value.tokens ++ (more.tokens ++ ts))) value.tree (more.tokens ++ ts) :=
      value.read (more.stops ts)
    rw [Items.tokens, Items.trees, List.append_assoc]
    rw [hvalue, List.cons_append] at hread ⊢
    rw [reads_listItems_cons, if_neg (ne_of_starts ht).2]
    exact ⟨_, _, hread, _, rfl, more.read ts⟩

theorem MoreItems.read : ∀ (d : MoreItems) (ts : List Token), Reads (moreItems stop (d.tokens ++ ts)) d.trees ts
  | .close closing, ts => by
    have hcomma : closing.val.kind ≠ .comma := by
      rw [closing.property]
      decide
    rw [MoreItems.tokens, MoreItems.trees, List.cons_append, reads_moreItems_cons, if_neg hcomma]
    exact ⟨rfl, closing.property, rfl⟩
  | .comma comma items, ts => by
    rw [MoreItems.tokens, MoreItems.trees, List.cons_append, reads_moreItems_cons, if_pos comma.property]
    exact items.read ts

end

theorem Expression.readClosed (d : Expression .or) (closing : Word .stmtClose) (ts : List Token) :
    Reads (closedExpression stop (d.tokens ++ closing.val :: ts)) d.tree ts := by
  have hclose : Stops .or (closing.val :: ts) := stops_word closing (by decide)
  exact reads_closedExpression.mpr ⟨_, d.read hclose, closing.val, rfl, closing.property⟩

/-! ### Parameters and loop names -/

theorem Default.read (d : Default) (ts : List Token) : Reads (Parser.literal stop (d.tokens ++ ts)) d.literal ts := by
  cases d with
  | negative sign numeral =>
    rw [Default.tokens, Default.literal, List.cons_append, reads_literal_cons, sign.property]
    exact ⟨numeral.token.val, ts, ⟨rfl, numeral.token.property⟩, numeral.value, numeral.reads, rfl, rfl⟩
  | number numeral =>
    rw [Default.tokens, Default.literal, List.cons_append, reads_literal_cons, numeral.token.property]
    exact ⟨numeral.value, numeral.reads, rfl, rfl⟩
  | string t | trueWord t | falseWord t =>
    rw [Default.tokens, Default.literal, List.cons_append, reads_literal_cons, t.property]
    exact ⟨rfl, rfl⟩

theorem DefaultClause.read (d : DefaultClause) {ts : List Token} (h : ∀ t ∈ ts.head?, t.kind ≠ .assign) :
    Reads (default? stop (d.tokens ++ ts)) d.literal? ts := by
  cases d with
  | nothing => exact reads_default?.mpr (Or.inl ⟨rfl, rfl, h⟩)
  | default sign value =>
    exact reads_default?.mpr (Or.inr ⟨sign.val, _, rfl, sign.property, value.literal, rfl, value.read ts⟩)

theorem Parameters.read : ∀ {seen : List String} (d : Parameters seen) (ts : List Token),
    Reads (Parser.parameters stop seen (d.tokens ++ ts)) d.parameters ts
  | _, .close closing, ts => by
    rw [Parameters.tokens, Parameters.parameters, List.cons_append, reads_parameters_cons, if_pos closing.property]
    exact ⟨rfl, rfl⟩
  | _, .last name hname default closing, ts => by
    have hdefault : Reads (default? stop (default.tokens ++ closing.val :: ts)) default.literal? (closing.val :: ts) :=
      default.read fun t ht => by
        cases ht
        rw [closing.property]
        decide
    rw [Parameters.tokens, Parameters.parameters, List.cons_append, List.append_assoc, reads_parameters_cons,
      if_neg (by rw [name.property]; decide)]
    refine ⟨name.property, hname, _, _, hdefault, ?_⟩
    dsimp only
    rw [if_neg (by rw [closing.property]; decide)]
    exact ⟨rfl, closing.property, rfl⟩
  | _, .cons name hname default comma more, ts => by
    have hdefault : Reads (default? stop (default.tokens ++ comma.val :: (more.tokens ++ ts))) default.literal?
        (comma.val :: (more.tokens ++ ts)) :=
      default.read fun t ht => by
        cases ht
        rw [comma.property]
        decide
    rw [Parameters.tokens, Parameters.parameters, List.cons_append, List.append_assoc, reads_parameters_cons,
      if_neg (by rw [name.property]; decide)]
    refine ⟨name.property, hname, _, _, hdefault, ?_⟩
    dsimp only
    rw [if_pos comma.property]
    exact ⟨_, rfl, more.read ts⟩

theorem LoopNames.read (d : LoopNames) {ts : List Token} (h : ∀ t ∈ ts.head?, t.kind ≠ .comma) :
    Reads (Parser.targets stop (d.tokens ++ ts)) d.targets ts := by
  cases d with
  | one name =>
    refine reads_targets.mpr ⟨name.val, ts, ⟨rfl, name.property⟩, ?_⟩
    cases ts with
    | nil => exact ⟨rfl, rfl⟩
    | cons t ts =>
      dsimp only
      rw [if_neg (h t rfl)]
      exact ⟨rfl, rfl⟩
  | two first comma second =>
    refine reads_targets.mpr ⟨first.val, comma.val :: second.val :: ts, ⟨rfl, first.property⟩, ?_⟩
    dsimp only
    rw [if_pos comma.property]
    exact ⟨second.val, rfl, rfl, second.property⟩

/-! ### Bodies -/

theorem Nodes.readBlock (d : Nodes) {ends : List TokenKind} {next : Token} {ts rest : List Token} {word : TokenKind}
    (h : Reads (nodes stop ends (d.tokens ++ next :: ts)) (d.trees, word) rest) :
    Reads (block stop ends (d.tokens ++ next :: ts)) (d.body next, word) rest :=
  reads_block.mpr ⟨d.trees, by rw [Nodes.body, place_append], h⟩

theorem reads_nodes_end {ends : List TokenKind} {opening last : Token} (hopening : opening.kind = .stmtOpen)
    (hlast : last.kind ∈ ends) (ts : List Token) :
    Reads (nodes stop ends (opening :: last :: ts)) ([], last.kind) ts := by
  rw [reads_nodes_cons, hopening]
  dsimp only
  rw [if_pos hlast]
  exact ⟨rfl, rfl⟩

theorem WordTag.read {kind : TokenKind} (tag : WordTag kind) (ts : List Token) :
    Reads (nodes stop [kind] (tag.tokens ++ ts)) ([], tag.word.val.kind) (tag.closing.val :: ts) :=
  reads_nodes_end tag.opening.property (by rw [tag.word.property]; exact List.mem_singleton_self kind) _

theorem Alternative.opening_kind (d : Alternative) : d.opening.kind = .stmtOpen := by
  cases d with
  | nothing last => exact last.opening.property
  | otherwise tag body last => exact tag.opening.property
  | elseIf opening word condition closing body rest => exact opening.property

mutual

/-- Nodes are read in front of whatever ends them. -/
theorem Nodes.read : ∀ (d : Nodes) {ends : List TokenKind} (_ : ∀ k ∈ ends, k ∈ terminators) {ts : List Token}
    {word : TokenKind} {rest : List Token}, Reads (nodes stop ends ts) ([], word) rest →
    Reads (nodes stop ends (d.tokens ++ ts)) (d.trees, word) rest
  | .nil, ends, _, ts, word, rest, h => by
    rw [Nodes.tokens, Nodes.trees]
    exact h
  | .text t more, ends, hends, ts, word, rest, h => by
    rw [Nodes.tokens, Nodes.trees, List.cons_append, reads_nodes_cons, t.property]
    exact ⟨_, _, rfl, more.read hends h⟩
  | .blank t more, ends, hends, ts, word, rest, h | .comment t more, ends, hends, ts, word, rest, h => by
    rw [Nodes.tokens, Nodes.trees, List.cons_append, reads_nodes_cons, t.property]
    exact more.read hends h
  | .output opening expr closing more, ends, hends, ts, word, rest, h => by
    have hclose : Stops .or (closing.val :: (more.tokens ++ ts)) := stops_word closing (by decide)
    rw [Nodes.tokens, Nodes.trees, List.cons_append, List.append_assoc, List.cons_append, reads_nodes_cons,
      opening.property]
    exact ⟨_, _, expr.read hclose, _, _, ⟨rfl, closing.property⟩, _, _, rfl, more.read hends h⟩
  | .statement opening statement more, ends, hends, ts, word, rest, h => by
    obtain ⟨keyword, us, htokens, hread⟩ := statement.read (more.tokens ++ ts)
    have hstart : keyword.kind ∉ ends := fun hmem => Statement.head_kind htokens (hends _ hmem)
    rw [Nodes.tokens, Nodes.trees, List.cons_append, List.append_assoc, htokens, reads_nodes_cons, opening.property]
    dsimp only
    rw [if_neg hstart]
    exact ⟨_, _, hread, _, _, rfl, more.read hends h⟩

theorem Statement.read : ∀ (d : Statement) (ts : List Token), ∃ keyword us, d.tokens ++ ts = keyword :: us ∧
    Reads (Parser.statement stop keyword us) d.tree ts
  | .branch word condition closing body rest, ts => by
    obtain ⟨last, us, htokens, hlast, hrest⟩ := rest.read ts
    have hbody := body.readBlock (body.read (by decide) (reads_nodes_end rest.opening_kind hlast us))
    refine ⟨word.val, condition.tokens ++ closing.val :: (body.tokens ++ rest.opening :: last :: us), ?_, ?_⟩
    · rw [← htokens, Statement.tokens]
      simp only [List.cons_append, List.append_assoc]
    · rw [Statement.tree]
      refine reads_statement.mpr ⟨.branch condition.tree, _, ?_, _, _, _, hbody, _, rfl, hrest⟩
      rw [reads_header, word.property]
      exact ⟨_, rfl, condition.readClosed closing _⟩
  | .loop word names sign iterable closing body last, ts => by
    have hbody := body.readBlock (body.read (by decide) (last.read ts))
    have hnames : Reads (targets stop (names.tokens ++ sign.val :: (iterable.tokens ++ closing.val ::
        (body.tokens ++ (last.tokens ++ ts))))) names.targets _ :=
      names.read fun t ht => by
        cases ht
        rw [sign.property]
        decide
    refine ⟨word.val, _, by simp only [Statement.tokens, List.cons_append, List.append_assoc]; rfl, ?_⟩
    rw [Statement.tree]
    refine reads_statement.mpr ⟨.loop names.targets iterable.tree, _, ?_, _, _, _, rfl, hbody, _, rfl,
      last.closing.property⟩
    rw [reads_header, word.property]
    exact ⟨_, _, hnames, _, _, ⟨rfl, sign.property⟩, _, rfl, iterable.readClosed closing _⟩
  | .macroDef word name paren parameters closing body last, ts => by
    have hbody := body.readBlock (body.read (by decide) (last.read ts))
    refine ⟨word.val, _, by simp only [Statement.tokens, List.cons_append, List.append_assoc]; rfl, ?_⟩
    rw [Statement.tree]
    refine reads_statement.mpr ⟨.macroDef name.val.text parameters.parameters, _, ?_, _, _, _, rfl, hbody, _, rfl,
      last.closing.property⟩
    rw [reads_header, word.property]
    exact ⟨_, _, ⟨rfl, name.property⟩, _, _, ⟨rfl, paren.property⟩, _, _, rfl, parameters.read _, _, rfl,
      closing.property⟩
  | .assign word name sign value closing, ts => by
    refine ⟨word.val, _, by simp only [Statement.tokens, List.cons_append, List.append_assoc]; rfl, ?_⟩
    rw [Statement.tree]
    refine reads_statement.mpr ⟨.assign name.val.text value.tree, ts, ?_, rfl, rfl⟩
    rw [reads_header, word.property]
    exact ⟨_, _, ⟨rfl, name.property⟩, _, _, ⟨rfl, sign.property⟩, _, rfl, value.readClosed closing _⟩

theorem Alternative.read : ∀ (d : Alternative) (ts : List Token), ∃ last us,
    d.tokens ++ ts = d.opening :: last :: us ∧ last.kind ∈ [.elifWord, .elseWord, .endifWord] ∧
    Reads (Parser.alternative stop last.kind us) d.tree ts
  | .nothing last, ts => by
    refine ⟨last.word.val, _, by rw [Alternative.tokens]; rfl, by rw [last.word.property]; decide, ?_⟩
    rw [Alternative.tree, reads_alternative, last.word.property]
    exact ⟨rfl, _, rfl, last.closing.property⟩
  | .otherwise tag body last, ts => by
    have hbody := body.readBlock (body.read (by decide) (last.read ts))
    refine ⟨tag.word.val, tag.closing.val :: (body.tokens ++ (last.tokens ++ ts)), ?_,
      by rw [tag.word.property]; decide, ?_⟩
    · rw [Alternative.tokens, List.append_assoc, List.append_assoc]
      rfl
    · rw [Alternative.tree, reads_alternative, tag.word.property]
      exact ⟨_, _, ⟨rfl, tag.closing.property⟩, _, _, _, rfl, hbody, _, rfl, last.closing.property⟩
  | .elseIf opening word condition closing body rest, ts => by
    obtain ⟨last, us, htokens, hlast, hrest⟩ := rest.read ts
    have hbody := body.readBlock (body.read (by decide) (reads_nodes_end rest.opening_kind hlast us))
    refine ⟨word.val, condition.tokens ++ closing.val :: (body.tokens ++ rest.opening :: last :: us), ?_,
      by rw [word.property]; decide, ?_⟩
    · rw [← htokens, Alternative.tokens, Alternative.opening]
      simp only [List.cons_append, List.append_assoc]
    · rw [Alternative.tree, reads_alternative, word.property]
      exact ⟨_, _, condition.readClosed closing _, _, _, _, hbody, _, rfl, hrest⟩

end

end TemplatedSql.Grammar
