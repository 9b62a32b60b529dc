import TemplatedSql.Proofs.Grammar.Viable

/-! # Where a parse error is reported

An error is reported at a token of the list, and no later than at the first one that nothing can come from: the tokens
before it are those of the start of a template. A derivation holds no end token, so what is missing can be put there and
an end token after it. -/

namespace TemplatedSql

namespace Grammar

/-! ### No end token in a derivation -/

theorem Word.kind_eq {kind : TokenKind} (t : Word kind) : t.val.kind = kind :=
  t.property

theorem Operator.ne_eof {l : Parser.Level} (o : Operator l) : ∀ t ∈ o.tokens, t.kind ≠ .eof := by
  have hoperators : ∀ entry ∈ operators, entry.1 ≠ .eof := by decide
  cases o with
  | word t op h => exact List.forall_mem_singleton.mpr (hoperators _ h)
  | notIn sign last h => simp [Operator.tokens, Word.kind_eq]

mutual

theorem Expression.ne_eof : ∀ {l : Parser.Level} (d : Expression l), ∀ t ∈ d.tokens, t.kind ≠ .eof
  | _, .not sign operand | _, .minus sign operand | _, .plus sign operand =>
    List.forall_mem_cons.mpr ⟨by simp [Word.kind_eq], operand.ne_eof⟩
  | _, .chain _ first more => List.forall_mem_append.mpr ⟨first.ne_eof, more.ne_eof⟩
  | _, .applied target postfixes => List.forall_mem_append.mpr ⟨target.ne_eof, postfixes.ne_eof⟩

theorem Chain.ne_eof : ∀ {l : Parser.Level} (d : Chain l), ∀ t ∈ d.tokens, t.kind ≠ .eof
  | _, .nil => List.forall_mem_nil _
  | _, .cons operator right more => by
    simp only [Chain.tokens, List.forall_mem_append]
    exact ⟨operator.ne_eof, right.ne_eof, more.ne_eof⟩

theorem Primary.ne_eof : ∀ (d : Primary), ∀ t ∈ d.tokens, t.kind ≠ .eof
  | .number numeral => by simp [Primary.tokens, Word.kind_eq]
  | .string t | .trueWord t | .falseWord t | .name t => by simp [Primary.tokens, Word.kind_eq]
  | .paren opening inner closing => by
    simp only [Primary.tokens, List.forall_mem_cons, List.forall_mem_append, Word.kind_eq]
    exact ⟨TokenKind.noConfusion, inner.ne_eof, TokenKind.noConfusion, List.forall_mem_nil _⟩
  | .list opening items => by
    simp only [Primary.tokens, List.forall_mem_cons, Word.kind_eq]
    exact ⟨TokenKind.noConfusion, items.ne_eof⟩

theorem Postfixes.ne_eof : ∀ (d : Postfixes), ∀ t ∈ d.tokens, t.kind ≠ .eof
  | .nil => List.forall_mem_nil _
  | .call opening arguments more => by
    simp only [Postfixes.tokens, List.forall_mem_cons, List.forall_mem_append, Word.kind_eq]
    exact ⟨TokenKind.noConfusion, arguments.ne_eof, more.ne_eof⟩
  | .index opening index closing more => by
    simp only [Postfixes.tokens, List.forall_mem_cons, List.forall_mem_append, Word.kind_eq]
    exact ⟨TokenKind.noConfusion, index.ne_eof, TokenKind.noConfusion, more.ne_eof⟩
  | .member dot name more => by
    simp only [Postfixes.tokens, List.forall_mem_cons, Word.kind_eq]
    exact ⟨TokenKind.noConfusion, TokenKind.noConfusion, more.ne_eof⟩

theorem Arguments.ne_eof : ∀ {seen : List String} (d : Arguments seen), ∀ t ∈ d.tokens, t.kind ≠ .eof
  | _, .close closing => by simp [Arguments.tokens, Word.kind_eq]
  | _, .positional value more => List.forall_mem_append.mpr ⟨value.ne_eof, more.ne_eof⟩
  | _, .named name sign _ value more => by
    simp only [Arguments.tokens, List.forall_mem_cons, List.forall_mem_append, Word.kind_eq]
    exact ⟨TokenKind.noConfusion, TokenKind.noConfusion, value.ne_eof, more.ne_eof⟩

theorem MoreArguments.ne_eof : ∀ {seen : List String} (d : MoreArguments seen), ∀ t ∈ d.tokens, t.kind ≠ .eof
  | _, .close closing => by simp [MoreArguments.tokens, Word.kind_eq]
  | _, .comma comma arguments => by
    simp only [MoreArguments.tokens, List.forall_mem_cons, Word.kind_eq]
    exact ⟨TokenKind.noConfusion, arguments.ne_eof⟩

theorem Items.ne_eof : ∀ (d : Items), ∀ t ∈ d.tokens, t.kind ≠ .eof
  | .close closing => by simp [Items.tokens, Word.kind_eq]
  | .item value more => List.forall_mem_append.mpr ⟨value.ne_eof, more.ne_eof⟩

theorem MoreItems.ne_eof : ∀ (d : MoreItems), ∀ t ∈ d.tokens, t.kind ≠ .eof
  | .close closing => by simp [MoreItems.tokens, Word.kind_eq]
  | .comma comma items => by
    simp only [MoreItems.tokens, List.forall_mem_cons, Word.kind_eq]
    exact ⟨TokenKind.noConfusion, items.ne_eof⟩

end

theorem DefaultClause.ne_eof (d : DefaultClause) : ∀ t ∈ d.tokens, t.kind ≠ .eof := by
  cases d with
  | nothing => exact List.forall_mem_nil _
  | default sign value => cases value <;> simp [DefaultClause.tokens, Default.tokens, Word.kind_eq]

theorem Parameters.ne_eof : ∀ {seen : List String} (d : Parameters seen), ∀ t ∈ d.tokens, t.kind ≠ .eof
  | _, .close closing => by simp [Parameters.tokens, Word.kind_eq]
  | _, .last name _ default closing => by
    simp only [Parameters.tokens, List.forall_mem_cons, List.forall_mem_append, Word.kind_eq]
    exact ⟨TokenKind.noConfusion, default.ne_eof, TokenKind.noConfusion, List.forall_mem_nil _⟩
  | _, .cons name _ default comma more => by
    simp only [Parameters.tokens, List.forall_mem_cons, List.forall_mem_append, Word.kind_eq]
    exact ⟨TokenKind.noConfusion, default.ne_eof, TokenKind.noConfusion, more.ne_eof⟩

theorem LoopNames.ne_eof (d : LoopNames) : ∀ t ∈ d.tokens, t.kind ≠ .eof := by
  cases d <;> simp [LoopNames.tokens, Word.kind_eq]

theorem WordTag.ne_eof {kind : TokenKind} (d : WordTag kind) (hkind : kind ≠ .eof) :
    ∀ t ∈ d.tokens, t.kind ≠ .eof := by
  simp [WordTag.tokens, Word.kind_eq, hkind]

mutual

theorem Nodes.ne_eof : ∀ (d : Nodes), ∀ t ∈ d.tokens, t.kind ≠ .eof
  | .nil => List.forall_mem_nil _
  | .text t more | .blank t more | .comment t more =>
    List.forall_mem_cons.mpr ⟨by simp [Word.kind_eq], more.ne_eof⟩
  | .output opening expr closing more => by
    simp only [Nodes.tokens, List.forall_mem_cons, List.forall_mem_append, Word.kind_eq]
    exact ⟨TokenKind.noConfusion, expr.ne_eof, TokenKind.noConfusion, more.ne_eof⟩
  | .statement opening statement more => by
    simp only [Nodes.tokens, List.forall_mem_cons, List.forall_mem_append, Word.kind_eq]
    exact ⟨TokenKind.noConfusion, statement.ne_eof, more.ne_eof⟩

theorem Statement.ne_eof : ∀ (d : Statement), ∀ t ∈ d.tokens, t.kind ≠ .eof
  | .branch word condition closing body rest => by
    simp only [Statement.tokens, List.forall_mem_cons, List.forall_mem_append, Word.kind_eq]
    exact ⟨TokenKind.noConfusion, condition.ne_eof, TokenKind.noConfusion, body.ne_eof, rest.ne_eof⟩
  | .loop word names sign iterable closing body last => by
    simp only [Statement.tokens, List.forall_mem_cons, List.forall_mem_append, Word.kind_eq]
    exact ⟨TokenKind.noConfusion, names.ne_eof, TokenKind.noConfusion, iterable.ne_eof, TokenKind.noConfusion,
      body.ne_eof, last.ne_eof TokenKind.noConfusion⟩
  | .macroDef word name paren parameters closing body last => by
    simp only [Statement.tokens, List.forall_mem_cons, List.forall_mem_append, Word.kind_eq]
    exact ⟨TokenKind.noConfusion, TokenKind.noConfusion, TokenKind.noConfusion, parameters.ne_eof,
      TokenKind.noConfusion, body.ne_eof, last.ne_eof TokenKind.noConfusion⟩
  | .assign word name sign value closing => by
    simp only [Statement.tokens, List.forall_mem_cons, List.forall_mem_append, Word.kind_eq]
    exact ⟨TokenKind.noConfusion, TokenKind.noConfusion, TokenKind.noConfusion, value.ne_eof, TokenKind.noConfusion,
      List.forall_mem_nil _⟩

theorem Alternative.ne_eof : ∀ (d : Alternative), ∀ t ∈ d.tokens, t.kind ≠ .eof
  | .nothing last => last.ne_eof TokenKind.noConfusion
  | .otherwise tag body last => by
    simp only [Alternative.tokens, List.forall_mem_append]
    exact ⟨tag.ne_eof TokenKind.noConfusion, body.ne_eof, last.ne_eof TokenKind.noConfusion⟩
  | .elseIf opening word condition closing body rest => by
    simp only [Alternative.tokens, List.forall_mem_cons, List.forall_mem_append, Word.kind_eq]
    exact ⟨TokenKind.noConfusion, TokenKind.noConfusion, condition.ne_eof, TokenKind.noConfusion, body.ne_eof,
      rest.ne_eof⟩

end

end Grammar

open TemplatedSql.Grammar TemplatedSql.Parser

variable {front : List Token} {stop : Token} {e : TemplateError}

/-- A parse error is reported at a token, no later than at the first one that nothing can come from: with what stands
    before it some tokens parse. -/
theorem parse_error_at_viable_prefix (hfront : ∀ t ∈ front, t.kind ≠ .eof) (hstop : stop.kind = .eof)
    (h : Body.ofTokens (front ++ [stop]) = .error e) :
    ∃ before t after, front ++ [stop] = before ++ t :: after ∧ e.position = t.start ∧
      (∃ expected, e.cause = .parse expected t.describe) ∧
      ∃ more last, (∀ u ∈ before ++ more, u.kind ≠ .eof) ∧ last.kind = .eof ∧
        ∃ body, Body.ofTokens (before ++ more ++ [last]) = .ok body := by
  rw [Body.ofTokens_append_eq hfront hstop] at h
  have hfails : Fails (Parser.nodes stop.start [] front) e := by
    rcases bind_eq_error_iff.mp h with hnodes | ⟨_, -, hbody⟩
    · exact hnodes
    · cases hbody
  obtain ⟨before, t, after, hsplit, ⟨expected, rfl⟩, d, more, hd⟩ := nodes_blames hstop hfails
  refine ⟨before, t, after, hsplit, rfl, ⟨expected, rfl⟩, more, stop, ?_, hstop, d.body stop, ?_⟩
  · rw [hd]
    exact d.ne_eof
  · rw [hd]
    exact d.parsed d.ne_eof hstop

/-- A parameter that comes twice, in a macro that is left open with its tag. -/
theorem parse_error_at_viable_prefix_of_repeated_parameter :
    let second : Token := ⟨.identifier, "a", ⟨1, 15⟩⟩
    let front : List Token := [⟨.stmtOpen, "\x7b%", ⟨1, 1⟩⟩, ⟨.macroWord, "macro", ⟨1, 4⟩⟩, ⟨.identifier, "m", ⟨1, 10⟩⟩,
      ⟨.leftParen, "(", ⟨1, 11⟩⟩, ⟨.identifier, "a", ⟨1, 12⟩⟩, ⟨.comma, ",", ⟨1, 13⟩⟩, second]
    let stop : Token := ⟨.eof, "", ⟨1, 16⟩⟩
    let e : TemplateError := ⟨⟨1, 15⟩, .parse "a unique parameter name" second.describe⟩
    (∀ t ∈ front, t.kind ≠ .eof) ∧ stop.kind = .eof ∧ Body.ofTokens (front ++ [stop]) = .error e ∧
      ∃ before t after, front ++ [stop] = before ++ t :: after ∧ e.position = t.start ∧
        (∃ expected, e.cause = .parse expected t.describe) ∧
        ∃ more last, (∀ u ∈ before ++ more, u.kind ≠ .eof) ∧ last.kind = .eof ∧
          ∃ body, Body.ofTokens (before ++ more ++ [last]) = .ok body := by
  intro second front stop e
  have hfront : ∀ t ∈ front, t.kind ≠ .eof := by decide
  have herror : Body.ofTokens (front ++ [stop]) = .error e := by cbv
  exact ⟨hfront, rfl, herror, parse_error_at_viable_prefix hfront rfl herror⟩

end TemplatedSql
