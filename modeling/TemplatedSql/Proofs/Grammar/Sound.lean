import TemplatedSql.Proofs.Grammar.Lookahead
import TemplatedSql.Proofs.Grammar.Reads

/-! # What the parser reads is derivable

Every part of a template that the parser reads has a derivation, and what the parser makes of it is the tree of the
derivation. The recursion is that of the parser, step by step. -/

namespace TemplatedSql.Grammar

open TemplatedSql.Parser

variable {stop : Position}

theorem sign?_eq_apply {l : Level} {k : TokenKind} {op : UnaryOp} (h : l.sign? k = some (.apply op)) :
    (l = .not ∧ k = .notWord ∧ op = .not) ∨ (l = .sign ∧ k = .minus ∧ op = .neg) := by
  unfold Level.sign? at h
  split at h <;> cases h
  · exact Or.inl ⟨rfl, rfl, rfl⟩
  · exact Or.inr ⟨rfl, rfl, rfl⟩

theorem sign?_eq_keep {l : Level} {k : TokenKind} (h : l.sign? k = some .keep) : l = .sign ∧ k = .plus := by
  unfold Level.sign? at h
  split at h <;> cases h
  exact ⟨rfl, rfl⟩

/-- Expressions that are read from so few tokens are derivable. -/
def LevelSound (stop : Position) (n : Nat) : Prop :=
  ∀ {l : Level} {ts : List Token} {e : Expr} {rest : List Token}, ts.length ≤ n → Reads (level stop l ts) e rest →
    ∃ d : Expression l, ts = d.tokens ++ rest ∧ d.tree = e

section
variable {n : Nat} (hlevel : LevelSound stop n)
include hlevel

theorem chain_sound {l : Level} {ts rest : List Token} {left e : Expr} (hn : ts.length ≤ n + 1)
    (h : Reads (chain stop l left ts) e rest) : ∃ d : Chain l, ts = d.tokens ++ rest ∧ d.tree left = e := by
  induction hk : ts.length using Nat.strongRecOn generalizing ts left with
  | _ k ih =>
    rw [reads_chain] at h
    cases ho : operator? l ts with
    | none =>
      rw [ho] at h
      obtain ⟨rfl, rfl⟩ := h
      exact ⟨.nil, rfl, by rw [Chain.tree]⟩
    | some operator =>
      rw [ho] at h
      obtain ⟨right, us, hright, hchain⟩ := h
      have hshort := operator.shorter
      have hus := hright.shorter
      obtain ⟨o, hts, hvalue⟩ := exists_operator ho
      obtain ⟨d, hrest, rfl⟩ := hlevel (by omega) hright
      obtain ⟨c, hc, rfl⟩ := ih us.length (by omega) (by omega) hchain rfl
      refine ⟨.cons o d c, ?_, by rw [Chain.tree, hvalue]⟩
      rw [hts, hrest, hc, Chain.tokens, List.append_assoc, List.append_assoc]

theorem callArguments_sound {seen : List String} {ts rest : List Token} {arguments : List CallArgument}
    (hn : ts.length ≤ n) (h : Reads (callArguments stop seen ts) arguments rest) :
    ∃ d : Arguments seen, ts = d.tokens ++ rest ∧ d.trees = arguments := by
  induction hk : ts.length using Nat.strongRecOn generalizing seen ts arguments rest with
  | _ k ih =>
    -- What follows an argument may be further ones.
    have hmore : ∀ {seen : List String} {us : List Token} {more : List CallArgument}, us.length < k →
        Reads (moreArguments stop seen us) more rest →
        ∃ d : MoreArguments seen, us = d.tokens ++ rest ∧ d.trees = more := by
      intro seen us more hus hmore
      cases us with
      | nil =>
        rw [moreArguments] at hmore
        exact (reads_error hmore).elim
      | cons t us =>
        rw [reads_moreArguments_cons] at hmore
        rw [List.length_cons] at hus
        split at hmore
        · rename_i hcomma
          obtain ⟨d, rfl, rfl⟩ := ih us.length (by omega) (by omega) hmore rfl
          exact ⟨.comma ⟨t, hcomma⟩ d, rfl, by rw [MoreArguments.trees]⟩
        · obtain ⟨rfl, hclose, rfl⟩ := hmore
          exact ⟨.close ⟨t, hclose⟩, rfl, by rw [MoreArguments.trees]⟩
    cases ts with
    | nil =>
      rw [callArguments] at h
      exact (reads_error h).elim
    | cons t ts =>
      rw [reads_callArguments_cons] at h
      split at h
      · rename_i hclose
        obtain ⟨rfl, rfl⟩ := h
        exact ⟨.close ⟨t, hclose⟩, rfl, by rw [Arguments.trees]⟩
      · cases hname : argumentName? (t :: ts) with
        | some name =>
          rw [hname] at h
          obtain ⟨hseen, value, us, hvalue, more, rfl, hus⟩ := h
          have hshort := name.shorter
          have := hvalue.shorter
          obtain ⟨sign, hts, hidentifier, hassign⟩ := argumentName?_eq_some hname
          obtain ⟨d, hrest, rfl⟩ := hlevel (by omega) hvalue
          obtain ⟨c, hc, rfl⟩ := hmore (by omega) hus
          refine ⟨.named ⟨name.value, hidentifier⟩ ⟨sign, hassign⟩ hseen d c, ?_, by rw [Arguments.trees]⟩
          refine hts.trans ?_
          rw [hrest, hc, Arguments.tokens]
          simp only [List.cons_append, List.append_assoc]
        | none =>
          rw [hname] at h
          obtain ⟨value, us, hvalue, more, rfl, hus⟩ := h
          have := hvalue.shorter
          obtain ⟨d, hrest, rfl⟩ := hlevel hn hvalue
          obtain ⟨c, rfl, rfl⟩ := hmore (by omega) hus
          exact ⟨.positional d c, by rw [hrest, Arguments.tokens, List.append_assoc], by rw [Arguments.trees]⟩

theorem listItems_sound {ts rest : List Token} {items : List Expr} (hn : ts.length ≤ n)
    (h : Reads (listItems stop ts) items rest) : ∃ d : Items, ts = d.tokens ++ rest ∧ d.trees = items := by
  induction hk : ts.length using Nat.strongRecOn generalizing ts items rest with
  | _ k ih =>
    have hmore : ∀ {us : List Token} {more : List Expr}, us.length < k → Reads (moreItems stop us) more rest →
        ∃ d : MoreItems, us = d.tokens ++ rest ∧ d.trees = more := by
      intro us more hus hmore
      cases us with
      | nil =>
        rw [moreItems] at hmore
        exact (reads_error hmore).elim
      | cons t us =>
        rw [reads_moreItems_cons] at hmore
        rw [List.length_cons] at hus
        split at hmore
        · rename_i hcomma
          obtain ⟨d, rfl, rfl⟩ := ih us.length (by omega) (by omega) hmore rfl
          exact ⟨.comma ⟨t, hcomma⟩ d, rfl, by rw [MoreItems.trees]⟩
        · obtain ⟨rfl, hclose, rfl⟩ := hmore
          exact ⟨.close ⟨t, hclose⟩, rfl, by rw [MoreItems.trees]⟩
    cases ts with
    | nil =>
      rw [listItems] at h
      exact (reads_error h).elim
    | cons t ts =>
      rw [reads_listItems_cons] at h
      split at h
      · rename_i hclose
        obtain ⟨rfl, rfl⟩ := h
        exact ⟨.close ⟨t, hclose⟩, rfl, by rw [Items.trees]⟩
      · obtain ⟨value, us, hvalue, more, rfl, hus⟩ := h
        have := hvalue.shorter
        obtain ⟨d, hrest, rfl⟩ := hlevel hn hvalue
        obtain ⟨c, rfl, rfl⟩ := hmore (by omega) hus
        exact ⟨.item d c, by rw [hrest, Items.tokens, List.append_assoc], by rw [Items.trees]⟩

theorem postfixes_sound {ts rest : List Token} {target e : Expr} (hn : ts.length ≤ n + 1)
    (h : Reads (postfixes stop target ts) e rest) : ∃ d : Postfixes, ts = d.tokens ++ rest ∧ d.tree target = e := by
  induction hk : ts.length using Nat.strongRecOn generalizing ts target with
  | _ k ih =>
    cases ts with
    | nil =>
      obtain ⟨rfl, rfl⟩ := reads_postfixes_nil.mp h
      exact ⟨.nil, rfl, by rw [Postfixes.tree]⟩
    | cons t ts =>
      rw [reads_postfixes_cons] at h
      rw [List.length_cons] at hn hk
      split at h
      · rename_i hparen
        obtain ⟨arguments, us, harguments, hrest⟩ := h
        have := harguments.shorter
        obtain ⟨d, rfl, rfl⟩ := callArguments_sound hlevel (by omega) harguments
        obtain ⟨c, rfl, rfl⟩ := ih us.length (by omega) (by omega) hrest rfl
        exact ⟨.call ⟨t, hparen⟩ d c, by simp [Postfixes.tokens], by rw [Postfixes.tree]⟩
      · rename_i hbracket
        obtain ⟨index, us, hindex, close, vs, ⟨rfl, hclose⟩, hrest⟩ := h
        have := hindex.shorter
        rw [List.length_cons] at this
        obtain ⟨d, rfl, rfl⟩ := hlevel (by omega) hindex
        obtain ⟨c, rfl, rfl⟩ := ih vs.length (by omega) (by omega) hrest rfl
        exact ⟨.index ⟨t, hbracket⟩ d ⟨close, hclose⟩ c, by simp [Postfixes.tokens], by rw [Postfixes.tree]⟩
      · rename_i hdot
        obtain ⟨name, us, ⟨rfl, hname⟩, hrest⟩ := h
        rw [List.length_cons] at hn hk
        obtain ⟨c, rfl, rfl⟩ := ih us.length (by omega) (by omega) hrest rfl
        exact ⟨.member ⟨t, hdot⟩ ⟨name, hname⟩ c, by simp [Postfixes.tokens], by rw [Postfixes.tree]⟩
      · obtain ⟨rfl, rfl⟩ := h
        exact ⟨.nil, rfl, by rw [Postfixes.tree]⟩

theorem primary_sound {ts rest : List Token} {e : Expr} (hn : ts.length ≤ n + 1)
    (h : Reads (primary stop ts) e rest) : ∃ d : Primary, ts = d.tokens ++ rest ∧ d.tree = e := by
  cases ts with
  | nil =>
    rw [primary] at h
    exact (reads_error h).elim
  | cons t ts =>
    rw [reads_primary_cons] at h
    rw [List.length_cons] at hn
    split at h
    · rename_i hk
      obtain ⟨v, hv, rfl, rfl⟩ := h
      exact ⟨.number ⟨⟨t, hk⟩, v, hv⟩, rfl, by rw [Primary.tree]⟩
    · rename_i hk
      obtain ⟨rfl, rfl⟩ := h
      exact ⟨.string ⟨t, hk⟩, rfl, by rw [Primary.tree]⟩
    · rename_i hk
      obtain ⟨rfl, rfl⟩ := h
      exact ⟨.trueWord ⟨t, hk⟩, rfl, by rw [Primary.tree]⟩
    · rename_i hk
      obtain ⟨rfl, rfl⟩ := h
      exact ⟨.falseWord ⟨t, hk⟩, rfl, by rw [Primary.tree]⟩
    · rename_i hk
      obtain ⟨rfl, rfl⟩ := h
      exact ⟨.name ⟨t, hk⟩, rfl, by rw [Primary.tree]⟩
    · rename_i hk
      obtain ⟨us, hinner, close, rfl, hclose⟩ := h
      obtain ⟨d, rfl, rfl⟩ := hlevel (by omega) hinner
      exact ⟨.paren ⟨t, hk⟩ d ⟨close, hclose⟩, by simp [Primary.tokens], by rw [Primary.tree]⟩
    · rename_i hk
      obtain ⟨items, rfl, hitems⟩ := h
      obtain ⟨d, rfl, rfl⟩ := listItems_sound hlevel (by omega) hitems
      exact ⟨.list ⟨t, hk⟩ d, by simp [Primary.tokens], by rw [Primary.tree]⟩
    · exact h.elim

/-- From expressions of fewer tokens to those of one more. The induction is on the levels, loosest last. -/
theorem levelSound_succ : LevelSound stop (n + 1) := by
  intro l ts e rest hn h
  induction hk : l.rank using Nat.strongRecOn generalizing l e rest with
  | _ k ih =>
    cases ts with
    | nil => exact (not_reads_level_nil h).elim
    | cons t ts =>
      rw [reads_level_cons] at h
      have hshort : ts.length ≤ n := Nat.le_of_succ_le_succ hn
      cases hsign : l.sign? t.kind with
      | some sign =>
        rw [hsign] at h
        cases sign with
        | keep =>
          obtain ⟨rfl, hplus⟩ := sign?_eq_keep hsign
          obtain ⟨d, rfl, rfl⟩ := hlevel hshort h
          exact ⟨.plus ⟨t, hplus⟩ d, rfl, by rw [Expression.tree]⟩
        | apply op =>
          obtain ⟨inner, rfl, hinner⟩ := h
          rcases sign?_eq_apply hsign with ⟨rfl, hnot, rfl⟩ | ⟨rfl, hminus, rfl⟩
          · obtain ⟨d, rfl, rfl⟩ := hlevel hshort hinner
            exact ⟨.not ⟨t, hnot⟩ d, rfl, by rw [Expression.tree]⟩
          · obtain ⟨d, rfl, rfl⟩ := hlevel hshort hinner
            exact ⟨.minus ⟨t, hminus⟩ d, rfl, by rw [Expression.tree]⟩
      | none =>
        rw [hsign] at h
        by_cases hl : l = .operand
        · subst hl
          obtain ⟨target, us, htarget, hpostfixes⟩ := reads_operation_operand.mp h
          have := htarget.shorter
          obtain ⟨d, hd, rfl⟩ := primary_sound hlevel hn htarget
          obtain ⟨p, rfl, rfl⟩ := postfixes_sound hlevel (by omega) hpostfixes
          exact ⟨.applied d p, by rw [hd, Expression.tokens, List.append_assoc], by rw [Expression.tree]⟩
        · obtain ⟨left, us, hleft, hchain⟩ := (reads_operation hl).mp h
          have := hleft.shorter
          obtain ⟨d, hd, rfl⟩ := ih _ (hk ▸ Level.rank_next_lt hl) hleft rfl
          obtain ⟨c, rfl, rfl⟩ := chain_sound hlevel (by omega) hchain
          exact ⟨.chain hl d c, by rw [hd, Expression.tokens, List.append_assoc], by rw [Expression.tree]⟩

end

theorem levelSound (n : Nat) : LevelSound stop n := by
  induction n with
  | zero =>
    intro l ts e rest hn h
    rw [List.length_eq_zero_iff.mp (Nat.le_zero.mp hn)] at h
    exact (not_reads_level_nil h).elim
  | succ n ih => exact levelSound_succ ih

/-- An expression that the parser reads is derivable, and is the tree of the derivation. -/
theorem level_sound {l : Level} {ts rest : List Token} {e : Expr} (h : Reads (level stop l ts) e rest) :
    ∃ d : Expression l, ts = d.tokens ++ rest ∧ d.tree = e :=
  levelSound ts.length (Nat.le_refl _) h

theorem closedExpression_sound {ts rest : List Token} {e : Expr} (h : Reads (closedExpression stop ts) e rest) :
    ∃ (d : Expression .or) (closing : Word .stmtClose), ts = d.tokens ++ closing.val :: rest ∧ d.tree = e := by
  obtain ⟨us, he, close, rfl, hclose⟩ := reads_closedExpression.mp h
  obtain ⟨d, hd, htree⟩ := level_sound he
  exact ⟨d, ⟨close, hclose⟩, hd, htree⟩

/-! ### Parameters and loop names -/

theorem literal_sound {ts rest : List Token} {v : Literal} (h : Reads (literal stop ts) v rest) :
    ∃ d : Default, ts = d.tokens ++ rest ∧ d.literal = v := by
  cases ts with
  | nil => exact (reads_error h).elim
  | cons t ts =>
    rw [reads_literal_cons] at h
    split at h
    · rename_i hk
      obtain ⟨u, us, ⟨rfl, hu⟩, n, hn, rfl, rfl⟩ := h
      exact ⟨.negative ⟨t, hk⟩ ⟨⟨u, hu⟩, n, hn⟩, rfl, rfl⟩
    · rename_i hk
      obtain ⟨n, hn, rfl, rfl⟩ := h
      exact ⟨.number ⟨⟨t, hk⟩, n, hn⟩, rfl, rfl⟩
    · rename_i hk
      obtain ⟨rfl, rfl⟩ := h
      exact ⟨.string ⟨t, hk⟩, rfl, rfl⟩
    · rename_i hk
      obtain ⟨rfl, rfl⟩ := h
      exact ⟨.trueWord ⟨t, hk⟩, rfl, rfl⟩
    · rename_i hk
      obtain ⟨rfl, rfl⟩ := h
      exact ⟨.falseWord ⟨t, hk⟩, rfl, rfl⟩
    · exact h.elim

theorem default?_sound {ts rest : List Token} {v : Option Literal} (h : Reads (default? stop ts) v rest) :
    ∃ d : DefaultClause, ts = d.tokens ++ rest ∧ d.literal? = v := by
  rcases reads_default?.mp h with ⟨rfl, rfl, -⟩ | ⟨sign, us, rfl, hsign, literal, rfl, hliteral⟩
  · exact ⟨.nothing, rfl, rfl⟩
  · obtain ⟨d, rfl, rfl⟩ := literal_sound hliteral
    exact ⟨.default ⟨sign, hsign⟩ d, rfl, rfl⟩

theorem parameters_sound {seen : List String} {ts rest : List Token} {ps : List Parameter}
    (h : Reads (parameters stop seen ts) ps rest) :
    ∃ d : Parameters seen, ts = d.tokens ++ rest ∧ d.parameters = ps := by
  induction hk : ts.length using Nat.strongRecOn generalizing seen ts ps rest with
  | _ k ih =>
    cases ts with
    | nil =>
      rw [parameters] at h
      exact (reads_error h).elim
    | cons t ts =>
      rw [reads_parameters_cons] at h
      split at h
      · rename_i hclose
        obtain ⟨rfl, rfl⟩ := h
        exact ⟨.close ⟨t, hclose⟩, rfl, rfl⟩
      · obtain ⟨hidentifier, hseen, default, us, hdefault, hrest⟩ := h
        have := hdefault.shorter
        rw [List.length_cons] at hk
        obtain ⟨d, rfl, rfl⟩ := default?_sound hdefault
        split at hrest
        · exact hrest.elim
        · rename_i u vs
          rw [List.length_cons] at this
          split at hrest
          · rename_i hcomma
            obtain ⟨more, rfl, hmore⟩ := hrest
            obtain ⟨c, rfl, rfl⟩ := ih vs.length (by omega) hmore rfl
            exact ⟨.cons ⟨t, hidentifier⟩ hseen d ⟨u, hcomma⟩ c, by simp [Parameters.tokens], rfl⟩
          · obtain ⟨rfl, hclose, rfl⟩ := hrest
            exact ⟨.last ⟨t, hidentifier⟩ hseen d ⟨u, hclose⟩, by simp [Parameters.tokens], rfl⟩

theorem targets_sound {ts rest : List Token} {names : Targets} (h : Reads (targets stop ts) names rest) :
    ∃ d : LoopNames, ts = d.tokens ++ rest ∧ d.targets = names := by
  obtain ⟨t, us, ⟨rfl, ht⟩, hrest⟩ := reads_targets.mp h
  split at hrest
  · obtain ⟨rfl, rfl⟩ := hrest
    exact ⟨.one ⟨t, ht⟩, rfl, rfl⟩
  · rename_i u vs
    split at hrest
    · rename_i hcomma
      obtain ⟨second, rfl, rfl, hsecond⟩ := hrest
      exact ⟨.two ⟨t, ht⟩ ⟨u, hcomma⟩ ⟨second, hsecond⟩, rfl, rfl⟩
    · obtain ⟨rfl, rfl⟩ := hrest
      exact ⟨.one ⟨t, ht⟩, rfl, rfl⟩

/-! ### Bodies -/

/-- How nodes are derivable that are read up to the end, or up to a tag that ends them. -/
def NodesDerived (ends : List TokenKind) (ts : List Token) (nodes : List Node) (word : TokenKind) (rest : List Token) :
    Prop :=
  ∃ d : Nodes, d.trees = nodes ∧
    ((ends = [] ∧ word = .eof ∧ ts = d.tokens ∧ rest = []) ∨
      ∃ (opening : Word .stmtOpen) (last : Token), last.kind = word ∧ word ∈ ends ∧
        ts = d.tokens ++ opening.val :: last :: rest)

/-- Something in front of nodes that are derivable. -/
theorem NodesDerived.cons {ends : List TokenKind} {ts rest : List Token} {nodes more : List Node}
    {word : TokenKind} (h : NodesDerived ends ts more word rest) (front : List Token) (f : Nodes → Nodes)
    (htokens : ∀ d, (f d).tokens = front ++ d.tokens) (htrees : ∀ d : Nodes, d.trees = more → (f d).trees = nodes) :
    NodesDerived ends (front ++ ts) nodes word rest := by
  obtain ⟨d, hd, ⟨hends, hword, rfl, hrest⟩ | ⟨opening, last, hlast, hword, rfl⟩⟩ := h
  · exact ⟨f d, htrees d hd, Or.inl ⟨hends, hword, (htokens d).symm, hrest⟩⟩
  · exact ⟨f d, htrees d hd, Or.inr ⟨opening, last, hlast, hword, by rw [htokens, List.append_assoc]⟩⟩

/-- Nodes that are read from so few tokens are derivable. -/
def NodesSound (stop : Position) (n : Nat) : Prop :=
  ∀ {ends : List TokenKind} {ts : List Token} {nodes : List Node} {word : TokenKind} {rest : List Token},
    ts.length ≤ n → Reads (Parser.nodes stop ends ts) (nodes, word) rest → NodesDerived ends ts nodes word rest

section
variable {n : Nat} (hnodes : NodesSound stop n)
include hnodes

theorem block_sound {ends : List TokenKind} {ts rest : List Token} {body : Body} {word : TokenKind}
    (hends : ends ≠ []) (hn : ts.length ≤ n) (h : Reads (block stop ends ts) (body, word) rest) :
    ∃ (d : Nodes) (opening : Word .stmtOpen) (last : Token), last.kind = word ∧ word ∈ ends ∧
      ts = d.tokens ++ opening.val :: last :: rest ∧ d.body opening = body := by
  obtain ⟨nodes, rfl, hread⟩ := reads_block.mp h
  obtain ⟨d, rfl, ⟨rfl, -⟩ | ⟨opening, last, hlast, hword, rfl⟩⟩ := hnodes hn hread
  · exact absurd rfl hends
  · exact ⟨d, opening, last, hlast, hword, rfl, by rw [Nodes.body, place_append]⟩

/-- The body of a loop or a macro, through the tag that ends it. -/
theorem closedBlock_sound {kind word : TokenKind} {ts rest : List Token} {body : Body} {close : Token}
    (hn : ts.length ≤ n) (h : Reads (block stop [kind] ts) (body, word) (close :: rest))
    (hclose : close.kind = .stmtClose) :
    ∃ (d : Nodes) (last : WordTag kind), ts = d.tokens ++ (last.tokens ++ rest) ∧ d.body last.opening = body := by
  obtain ⟨d, opening, last, hlast, hword, rfl, hbody⟩ := block_sound hnodes (List.cons_ne_nil _ _) hn h
  exact ⟨d, ⟨opening, ⟨last, hlast.trans (List.mem_singleton.mp hword)⟩, ⟨close, hclose⟩⟩, rfl, hbody⟩

theorem alternative_sound {opening : Word .stmtOpen} {last : Token} {ts rest : List Token}
    {alternative : TemplatedSql.Alternative} (hlast : last.kind ∈ [.elifWord, .elseWord, .endifWord])
    (hn : ts.length ≤ n) (h : Reads (Parser.alternative stop last.kind ts) alternative rest) :
    ∃ d : Alternative, opening.val :: last :: ts = d.tokens ++ rest ∧ d.tree = alternative ∧
      d.opening = opening.val := by
  induction hk : ts.length using Nat.strongRecOn generalizing opening last ts alternative rest with
  | _ k ih =>
    rw [reads_alternative] at h
    split at h
    · rename_i helif
      obtain ⟨condition, us, hcondition, body, word, vs, hbody, more, rfl, hmore⟩ := h
      have := hcondition.shorter
      have := hbody.shorter
      obtain ⟨c, closing, rfl, rfl⟩ := closedExpression_sound hcondition
      obtain ⟨b, next, nextLast, rfl, hword, rfl, rfl⟩ := block_sound hnodes (List.cons_ne_nil _ _) (by omega) hbody
      obtain ⟨r, hr, rfl, hopening⟩ := ih vs.length (by omega) hword (by omega) hmore rfl
      refine ⟨.elseIf opening ⟨last, helif⟩ c closing b r, ?_, by rw [Alternative.tree, hopening], rfl⟩
      rw [hr, Alternative.tokens]
      simp only [List.cons_append, List.append_assoc]
    · rename_i helse
      obtain ⟨close, us, ⟨rfl, hclose⟩, body, word, vs, rfl, hbody, lastClose, rfl, hlastClose⟩ := h
      rw [List.length_cons] at hn
      obtain ⟨b, tag, rfl, rfl⟩ := closedBlock_sound hnodes (by omega) hbody hlastClose
      refine ⟨.otherwise ⟨opening, ⟨last, helse⟩, ⟨close, hclose⟩⟩ b tag, ?_, by rw [Alternative.tree], rfl⟩
      simp [Alternative.tokens, WordTag.tokens]
    · rename_i helif helse
      obtain ⟨rfl, close, rfl, hclose⟩ := h
      have hend : last.kind = .endifWord := by
        simp only [List.mem_cons, List.not_mem_nil, or_false] at hlast
        exact (hlast.resolve_left helif).resolve_left helse
      exact ⟨.nothing ⟨opening, ⟨last, hend⟩, ⟨close, hclose⟩⟩, rfl, by rw [Alternative.tree], rfl⟩

theorem statement_sound {keyword : Token} {ts rest : List Token} {node : Node} (hn : ts.length ≤ n)
    (h : Reads (statement stop keyword ts) node rest) :
    ∃ d : Statement, keyword :: ts = d.tokens ++ rest ∧ d.tree = node := by
  obtain ⟨head, us, hhead, hrest⟩ := reads_statement.mp h
  have := hhead.shorter
  rw [reads_header] at hhead
  split at hhead
  · rename_i hk
    obtain ⟨condition, rfl, hcondition⟩ := hhead
    obtain ⟨body, word, vs, hbody, more, rfl, hmore⟩ := hrest
    have := hbody.shorter
    obtain ⟨c, closing, rfl, rfl⟩ := closedExpression_sound hcondition
    obtain ⟨b, opening, last, rfl, hword, rfl, rfl⟩ := block_sound hnodes (List.cons_ne_nil _ _) (by omega) hbody
    obtain ⟨r, hr, rfl, hopening⟩ := alternative_sound hnodes hword (by omega) hmore
    refine ⟨.branch ⟨keyword, hk⟩ c closing b r, ?_, by rw [Statement.tree, hopening]⟩
    rw [hr, Statement.tokens]
    simp only [List.cons_append, List.append_assoc]
  · rename_i hk
    obtain ⟨names, vs, hnames, word, ws, ⟨rfl, hword⟩, iterable, rfl, hiterable⟩ := hhead
    obtain ⟨body, last, xs, rfl, hbody, close, rfl, hclose⟩ := hrest
    obtain ⟨t, rfl, rfl⟩ := targets_sound hnames
    obtain ⟨i, closing, rfl, rfl⟩ := closedExpression_sound hiterable
    obtain ⟨b, tag, rfl, rfl⟩ := closedBlock_sound hnodes (by omega) hbody hclose
    refine ⟨.loop ⟨keyword, hk⟩ t ⟨word, hword⟩ i closing b tag, ?_, by rw [Statement.tree]⟩
    simp [Statement.tokens]
  · rename_i hk
    obtain ⟨name, vs, ⟨rfl, hname⟩, paren, ws, ⟨rfl, hparen⟩, ps, xs, rfl, hps, close, rfl, hclose⟩ := hhead
    obtain ⟨body, last, ys, rfl, hbody, lastClose, rfl, hlastClose⟩ := hrest
    obtain ⟨p, rfl, rfl⟩ := parameters_sound hps
    obtain ⟨b, tag, rfl, rfl⟩ := closedBlock_sound hnodes (by omega) hbody hlastClose
    refine ⟨.macroDef ⟨keyword, hk⟩ ⟨name, hname⟩ ⟨paren, hparen⟩ p ⟨close, hclose⟩ b tag, ?_, by rw [Statement.tree]⟩
    simp [Statement.tokens]
  · rename_i hk
    obtain ⟨name, vs, ⟨rfl, hname⟩, sign, ws, ⟨rfl, hsign⟩, value, rfl, hvalue⟩ := hhead
    obtain ⟨rfl, rfl⟩ := hrest
    obtain ⟨v, closing, rfl, rfl⟩ := closedExpression_sound hvalue
    refine ⟨.assign ⟨keyword, hk⟩ ⟨name, hname⟩ ⟨sign, hsign⟩ v closing, ?_, by rw [Statement.tree]⟩
    simp [Statement.tokens]
  · exact hhead.elim

/-- From nodes of fewer tokens to those of one more: what the first token starts comes in front. -/
theorem nodesSound_succ : NodesSound stop (n + 1) := by
  intro ends ts nodes word rest hn h
  cases ts with
  | nil =>
    obtain ⟨rfl, hv, rfl⟩ := reads_nodes_nil.mp h
    cases hv
    exact ⟨.nil, by rw [Nodes.trees], Or.inl ⟨rfl, rfl, rfl, rfl⟩⟩
  | cons t ts =>
    rw [reads_nodes_cons] at h
    rw [List.length_cons] at hn
    split at h
    · rename_i hk
      obtain ⟨more, w, hv, hmore⟩ := h
      cases hv
      have hmore := hnodes (by omega) hmore
      exact hmore.cons [t] (.text ⟨t, hk⟩) (fun d => rfl) fun d hd => by rw [Nodes.trees, hd]
    · rename_i hk
      have hmore := hnodes (by omega) h
      exact hmore.cons [t] (.blank ⟨t, hk⟩) (fun d => rfl) fun d hd => by rw [Nodes.trees, hd]
    · rename_i hk
      have hmore := hnodes (by omega) h
      exact hmore.cons [t] (.comment ⟨t, hk⟩) (fun d => rfl) fun d hd => by rw [Nodes.trees, hd]
    · rename_i hk
      obtain ⟨expr, us, hexpr, close, vs, ⟨rfl, hclose⟩, more, w, hv, hmore⟩ := h
      cases hv
      have := hexpr.shorter
      rw [List.length_cons] at this
      obtain ⟨e, rfl, rfl⟩ := level_sound hexpr
      have hmore := hnodes (by omega) hmore
      have hall := hmore.cons (t :: (e.tokens ++ [close])) (.output ⟨t, hk⟩ e ⟨close, hclose⟩)
        (fun d => by simp [Nodes.tokens]) fun d hd => by rw [Nodes.trees, hd]
      simpa using hall
    · rename_i hk
      split at h
      · exact h.elim
      · rename_i keyword us
        rw [List.length_cons] at hn
        split at h
        · rename_i hmem
          obtain ⟨hv, rfl⟩ := h
          cases hv
          exact ⟨.nil, by rw [Nodes.trees], Or.inr ⟨⟨t, hk⟩, keyword, rfl, hmem, rfl⟩⟩
        · obtain ⟨node, vs, hnode, more, w, hv, hmore⟩ := h
          cases hv
          have := hnode.shorter
          obtain ⟨s, hs, rfl⟩ := statement_sound hnodes (by omega) hnode
          have hmore := hnodes (by omega) hmore
          have hall := hmore.cons (t :: s.tokens) (.statement ⟨t, hk⟩ s) (fun d => rfl)
            fun d hd => by rw [Nodes.trees, hd]
          rw [hs]
          exact hall
    · exact h.elim

end

theorem nodesSound (n : Nat) : NodesSound stop n := by
  induction n with
  | zero =>
    intro ends ts nodes word rest hn h
    cases List.length_eq_zero_iff.mp (Nat.le_zero.mp hn)
    obtain ⟨rfl, hv, rfl⟩ := reads_nodes_nil.mp h
    cases hv
    exact ⟨.nil, by rw [Nodes.trees], Or.inl ⟨rfl, rfl, rfl, rfl⟩⟩
  | succ n ih => exact nodesSound_succ ih

/-- Nodes that the parser reads up to the end are derivable, and are the trees of the derivation. -/
theorem nodes_sound {ts rest : List Token} {nodes : List Node} {word : TokenKind}
    (h : Reads (Parser.nodes stop [] ts) (nodes, word) rest) : ∃ d : Nodes, d.tokens = ts ∧ d.trees = nodes := by
  obtain ⟨d, hd, ⟨-, -, rfl, -⟩ | ⟨-, -, -, hword, -⟩⟩ := nodesSound ts.length (Nat.le_refl _) h
  · exact ⟨d, rfl, hd⟩
  · cases hword

end TemplatedSql.Grammar
