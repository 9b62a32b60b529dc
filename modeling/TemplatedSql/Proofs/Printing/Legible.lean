import TemplatedSql.Proofs.Grammar.Accept
import TemplatedSql.Proofs.Number.Sign
import TemplatedSql.Proofs.Printing.Subtree

/-! # Which expressions come out of the parser

The tokens of a source make names of words and numbers of digits. So in an expression that comes out of the parser
every name is a word that is no keyword, no number has a sign, and no two arguments of a call have the same name. -/

namespace TemplatedSql

open TemplatedSql.Grammar

/-- A word that is no keyword. -/
def IsName (name : String) : Prop :=
  ∃ c part, name = .ofList (c :: part) ∧ isWordStart c = true ∧ (∀ d ∈ part, isWordPart d = true) ∧
    wordKind name = .identifier

/-- The arguments with names have different ones, none of them among the names given. -/
def ProperlyNamed : List String → List CallArgument → Prop
  | _, [] => True
  | seen, a :: more => (∀ name ∈ a.name, IsName name ∧ name ∉ seen) ∧ ProperlyNamed (a.name.toList ++ seen) more

/-- What holds of every part of an expression that comes out of the parser. -/
def Expr.Legible : Expr → Prop
  | .literal _ (.number n) => Number.Unsigned n
  | .name _ word | .member _ _ word => IsName word
  | .call _ _ arguments => ProperlyNamed [] arguments
  | _ => True

/-! ### Tokens -/

/-- Tokens that are names or numbers have the text for it. -/
structure Token.Lexed (t : Token) : Prop where
  name : t.kind = .identifier → IsName t.text
  number : t.kind = .number → ∀ n, Number.ofString? t.text = some n → Number.Unsigned n

theorem Token.lexed_of_kind {t : Token} (hname : t.kind ≠ .identifier) (hnumber : t.kind ≠ .number) : t.Lexed :=
  ⟨fun h => absurd h hname, fun h => absurd h hnumber⟩

theorem wordKind_ne_number (word : String) : wordKind word ≠ .number := by
  rw [wordKind]
  cases h : keywords.lookup word with
  | none => decide
  | some kind =>
    have hall : ∀ entry ∈ keywords, entry.2 ≠ .number := by decide
    obtain ⟨before, after, hsplit, -⟩ := List.lookup_eq_some_iff.mp h
    exact hall (word, kind) (by simp [hsplit])

theorem TokenKind.Spelled.lexed {kind : TokenKind} {raw : List Char} {text : String} (h : kind.Spelled raw text)
    (p : Position) : Token.Lexed ⟨kind, text, p⟩ := by
  cases h with
  | word hstart hpart =>
    exact ⟨fun hkind => ⟨_, _, rfl, hstart, hpart, hkind⟩, fun hkind => absurd hkind (wordKind_ne_number _)⟩
  | number hstart hpart hvalue => exact ⟨fun hkind => (by cases hkind), fun _ n => Number.unsigned_of_ofString? hstart⟩
  | string => exact Token.lexed_of_kind TokenKind.noConfusion TokenKind.noConfusion
  | symbol h =>
    have hall : ∀ entry ∈ symbols, entry.2 ≠ .identifier ∧ entry.2 ≠ .number := by decide
    exact Token.lexed_of_kind (hall _ h).1 (hall _ h).2

theorem Laid.lexed {close : Option TokenKind} {p : Position} {segments : List Segment} (h : Laid close p segments) :
    ∀ s ∈ segments, s.token.Lexed := by
  induction h with
  | eof =>
    exact List.forall_mem_cons.mpr
      ⟨Token.lexed_of_kind TokenKind.noConfusion TokenKind.noConfusion, List.forall_mem_nil _⟩
  | text _ _ _ ih | blanks _ _ _ ih | comment _ _ _ _ ih =>
    exact List.forall_mem_cons.mpr ⟨Token.lexed_of_kind TokenKind.noConfusion TokenKind.noConfusion, ih⟩
  | opened hmark _ _ _ ih =>
    have hmarks : ∀ m ∈ tagMarks, m.2.1 ≠ .identifier ∧ m.2.1 ≠ .number := by decide
    exact List.forall_mem_cons.mpr ⟨Token.lexed_of_kind (hmarks _ hmark).1 (hmarks _ hmark).2, ih⟩
  | inner _ _ htaken _ ih | closed _ _ htaken _ ih => exact List.forall_mem_cons.mpr ⟨htaken.spelled.lexed _, ih⟩

/-! ### Derivations -/

namespace Grammar

mutual

theorem Expression.legible : ∀ {l : Parser.Level} (d : Expression l), (∀ t ∈ d.tokens, t.Lexed) →
    ∀ s ∈ d.tree.subtrees, s.Legible
  | _, .not sign operand, h => by
    simp only [Expression.tokens, Expression.tree, Expr.subtrees, List.forall_mem_cons] at h ⊢
    exact ⟨trivial, operand.legible h.2⟩
  | _, .minus sign operand, h => by
    simp only [Expression.tokens, Expression.tree, Expr.subtrees, List.forall_mem_cons] at h ⊢
    exact ⟨trivial, operand.legible h.2⟩
  | _, .plus sign operand, h => by
    simp only [Expression.tokens, Expression.tree, List.forall_mem_cons] at h ⊢
    exact operand.legible h.2
  | _, .chain hl first more, h => by
    simp only [Expression.tokens, Expression.tree, List.forall_mem_append] at h ⊢
    exact more.legible h.2 (first.legible h.1)
  | _, .applied target postfixes, h => by
    simp only [Expression.tokens, Expression.tree, List.forall_mem_append] at h ⊢
    exact postfixes.legible h.2 (target.legible h.1)

theorem Chain.legible : ∀ {l : Parser.Level} (d : Chain l) {left : Expr}, (∀ t ∈ d.tokens, t.Lexed) →
    (∀ s ∈ left.subtrees, s.Legible) → ∀ s ∈ (d.tree left).subtrees, s.Legible
  | _, .nil, left, _, hleft => by
    rw [Chain.tree]
    exact hleft
  | _, .cons operator right more, left, h, hleft => by
    simp only [Chain.tokens, Chain.tree, List.forall_mem_append] at h ⊢
    refine more.legible h.2.2 ?_
    simp only [Expr.subtrees, List.forall_mem_cons, List.forall_mem_append]
    exact ⟨trivial, hleft, right.legible h.2.1⟩

theorem Primary.legible : ∀ (d : Primary), (∀ t ∈ d.tokens, t.Lexed) → ∀ s ∈ d.tree.subtrees, s.Legible
  | .number numeral, h => by
    simp only [Primary.tokens, Primary.tree, Expr.subtrees, List.forall_mem_cons] at h ⊢
    exact ⟨h.1.number numeral.token.property _ numeral.reads, List.forall_mem_nil _⟩
  | .string t, _ | .trueWord t, _ | .falseWord t, _ => by
    simp only [Primary.tree, Expr.subtrees, List.forall_mem_cons]
    exact ⟨trivial, List.forall_mem_nil _⟩
  | .name t, h => by
    simp only [Primary.tokens, Primary.tree, Expr.subtrees, List.forall_mem_cons] at h ⊢
    exact ⟨h.1.name t.property, List.forall_mem_nil _⟩
  | .paren opening inner closing, h => by
    simp only [Primary.tokens, Primary.tree, List.forall_mem_cons, List.forall_mem_append] at h ⊢
    exact inner.legible h.2.1
  | .list opening items, h => by
    simp only [Primary.tokens, Primary.tree, Expr.subtrees, List.forall_mem_cons] at h ⊢
    exact ⟨trivial, items.legible h.2⟩

theorem Postfixes.legible : ∀ (d : Postfixes) {target : Expr}, (∀ t ∈ d.tokens, t.Lexed) →
    (∀ s ∈ target.subtrees, s.Legible) → ∀ s ∈ (d.tree target).subtrees, s.Legible
  | .nil, target, _, htarget => by
    rw [Postfixes.tree]
    exact htarget
  | .call opening arguments more, target, h, htarget => by
    simp only [Postfixes.tokens, Postfixes.tree, List.forall_mem_cons, List.forall_mem_append] at h ⊢
    obtain ⟨hparts, hnames⟩ := arguments.legible h.2.1
    refine more.legible h.2.2 ?_
    simp only [Expr.subtrees, List.forall_mem_cons, List.forall_mem_append]
    exact ⟨hnames, htarget, hparts⟩
  | .index opening index closing more, target, h, htarget => by
    simp only [Postfixes.tokens, Postfixes.tree, List.forall_mem_cons, List.forall_mem_append] at h ⊢
    refine more.legible h.2.2.2 ?_
    simp only [Expr.subtrees, List.forall_mem_cons, List.forall_mem_append]
    exact ⟨trivial, htarget, index.legible h.2.1⟩
  | .member dot name more, target, h, htarget => by
    simp only [Postfixes.tokens, Postfixes.tree, List.forall_mem_cons] at h ⊢
    refine more.legible h.2.2 ?_
    simp only [Expr.subtrees, List.forall_mem_cons]
    exact ⟨h.2.1.name name.property, htarget⟩

theorem Arguments.legible : ∀ {seen : List String} (d : Arguments seen), (∀ t ∈ d.tokens, t.Lexed) →
    (∀ s ∈ CallArgument.subtreesOf d.trees, s.Legible) ∧ ProperlyNamed seen d.trees
  | _, .close closing, _ => by
    simp only [Arguments.trees, CallArgument.subtreesOf]
    exact ⟨List.forall_mem_nil _, trivial⟩
  | _, .positional value more, h => by
    simp only [Arguments.tokens, Arguments.trees, CallArgument.subtreesOf, CallArgument.subtrees,
      List.forall_mem_append] at h ⊢
    obtain ⟨hparts, hnames⟩ := more.legible h.2
    refine ⟨⟨value.legible h.1, hparts⟩, fun word hword => ?_, hnames⟩
    cases hword
  | _, .named name sign hseen value more, h => by
    simp only [Arguments.tokens, Arguments.trees, CallArgument.subtreesOf, CallArgument.subtrees,
      List.forall_mem_append, List.forall_mem_cons] at h ⊢
    obtain ⟨hparts, hnames⟩ := more.legible h.2.2.2
    refine ⟨⟨value.legible h.2.2.1, hparts⟩, fun word hword => ?_, hnames⟩
    cases hword
    exact ⟨h.1.name name.property, hseen⟩

theorem MoreArguments.legible : ∀ {seen : List String} (d : MoreArguments seen), (∀ t ∈ d.tokens, t.Lexed) →
    (∀ s ∈ CallArgument.subtreesOf d.trees, s.Legible) ∧ ProperlyNamed seen d.trees
  | _, .close closing, _ => by
    simp only [MoreArguments.trees, CallArgument.subtreesOf]
    exact ⟨List.forall_mem_nil _, trivial⟩
  | _, .comma comma arguments, h => by
    simp only [MoreArguments.tokens, MoreArguments.trees, List.forall_mem_cons] at h ⊢
    exact arguments.legible h.2

theorem Items.legible : ∀ (d : Items), (∀ t ∈ d.tokens, t.Lexed) → ∀ s ∈ Expr.subtreesOf d.trees, s.Legible
  | .close closing, _ => by
    simp only [Items.trees, Expr.subtreesOf]
    exact List.forall_mem_nil _
  | .item value more, h => by
    simp only [Items.tokens, Items.trees, Expr.subtreesOf, List.forall_mem_append] at h ⊢
    exact ⟨value.legible h.1, more.legible h.2⟩

theorem MoreItems.legible : ∀ (d : MoreItems), (∀ t ∈ d.tokens, t.Lexed) → ∀ s ∈ Expr.subtreesOf d.trees, s.Legible
  | .close closing, _ => by
    simp only [MoreItems.trees, Expr.subtreesOf]
    exact List.forall_mem_nil _
  | .comma comma items, h => by
    simp only [MoreItems.tokens, MoreItems.trees, List.forall_mem_cons] at h ⊢
    exact items.legible h.2

end

mutual

theorem Nodes.legible : ∀ (d : Nodes), (∀ t ∈ d.tokens, t.Lexed) →
    ∀ e ∈ Node.expressionsOf d.trees, ∀ s ∈ e.subtrees, s.Legible
  | .nil, _ => by
    simp only [Nodes.trees, Node.expressionsOf]
    exact List.forall_mem_nil _
  | .text t more, h => by
    simp only [Nodes.tokens, Nodes.trees, Node.expressionsOf, Node.expressions, List.nil_append,
      List.forall_mem_cons] at h ⊢
    exact more.legible h.2
  | .blank t more, h | .comment t more, h => by
    simp only [Nodes.tokens, Nodes.trees, List.forall_mem_cons] at h ⊢
    exact more.legible h.2
  | .output opening expr closing more, h => by
    simp only [Nodes.tokens, Nodes.trees, Node.expressionsOf, Node.expressions, List.cons_append, List.nil_append,
      List.forall_mem_cons, List.forall_mem_append] at h ⊢
    exact ⟨expr.legible h.2.1, more.legible h.2.2.2⟩
  | .statement opening statement more, h => by
    simp only [Nodes.tokens, Nodes.trees, Node.expressionsOf, List.forall_mem_cons, List.forall_mem_append] at h ⊢
    exact ⟨statement.legible h.2.1, more.legible h.2.2⟩

theorem Statement.legible : ∀ (d : Statement), (∀ t ∈ d.tokens, t.Lexed) →
    ∀ e ∈ d.tree.expressions, ∀ s ∈ e.subtrees, s.Legible
  | .branch word condition closing body rest, h => by
    simp only [Statement.tokens, Statement.tree, Node.expressions, Nodes.body, Body.expressions, List.forall_mem_cons,
      List.forall_mem_append] at h ⊢
    exact ⟨condition.legible h.2.1, body.legible h.2.2.2.1, rest.legible h.2.2.2.2⟩
  | .loop word names sign iterable closing body last, h => by
    simp only [Statement.tokens, Statement.tree, Node.expressions, Nodes.body, Body.expressions, List.forall_mem_cons,
      List.forall_mem_append] at h ⊢
    exact ⟨iterable.legible h.2.2.2.1, body.legible h.2.2.2.2.2.1⟩
  | .macroDef word name paren parameters closing body last, h => by
    simp only [Statement.tokens, Statement.tree, Node.expressions, MacroDef.expressions, Nodes.body, Body.expressions,
      List.forall_mem_cons, List.forall_mem_append] at h ⊢
    exact body.legible h.2.2.2.2.2.1
  | .assign word name sign value closing, h => by
    simp only [Statement.tokens, Statement.tree, Node.expressions, List.forall_mem_cons, List.forall_mem_append] at h ⊢
    exact ⟨value.legible h.2.2.2.1, List.forall_mem_nil _⟩

theorem Alternative.legible : ∀ (d : Alternative), (∀ t ∈ d.tokens, t.Lexed) →
    ∀ e ∈ d.tree.expressions, ∀ s ∈ e.subtrees, s.Legible
  | .nothing last, _ => by
    simp only [Alternative.tree, TemplatedSql.Alternative.expressions]
    exact List.forall_mem_nil _
  | .otherwise tag body last, h => by
    simp only [Alternative.tokens, Alternative.tree, TemplatedSql.Alternative.expressions, Nodes.body,
      Body.expressions, List.forall_mem_append] at h ⊢
    exact body.legible h.2.1
  | .elseIf opening word condition closing body rest, h => by
    simp only [Alternative.tokens, Alternative.tree, TemplatedSql.Alternative.expressions, Nodes.body,
      Body.expressions, List.forall_mem_cons, List.forall_mem_append] at h ⊢
    exact ⟨condition.legible h.2.2.1, body.legible h.2.2.2.2.1, rest.legible h.2.2.2.2.2⟩

end

end Grammar

/-- Every part of every expression that comes out of the parser is legible. -/
theorem Body.legible_of_ofSource {source : String} {body : Body} (h : Body.ofSource source = .ok body) :
    ∀ e ∈ body.expressions, ∀ s ∈ e.subtrees, s.Legible := by
  obtain ⟨d, stop, hscan, -, -, rfl⟩ := Body.derivation_of_ofSource h
  obtain ⟨segments, hlaid, -, hsegments⟩ := Token.scan_laid hscan
  have hlexed : ∀ t ∈ segments.map (·.token), t.Lexed := by
    simpa using hlaid.lexed
  rw [hsegments] at hlexed
  rw [Nodes.body, Body.expressions]
  exact d.legible fun t ht => hlexed t (List.mem_append_left _ ht)

end TemplatedSql
