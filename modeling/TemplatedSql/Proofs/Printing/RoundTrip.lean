import TemplatedSql.Proofs.Printing.Clean
import TemplatedSql.Proofs.Printing.Outside

/-! # What is printed parses to what it was printed from

The text of an expression stands in a tag of its own, between the blanks that separate it from the delimiters. What
comes out of the parser is printed so that it comes out again: its names and numbers are legible, which leaves
only the numbers that have no decimal text and those that a point after them would go on with. -/

namespace TemplatedSql

open TemplatedSql.Grammar
open TemplatedSql.Parser (Level)

variable {e : Expr}

/-! ### The tag -/

/-- In a tag, the text of an expression is cut into the tokens of the expression. -/
theorem ReadsBack.scan (h : ReadsBack e) : ∃ (opening : Word .exprOpen) (ts : List Token) (closing : Word .exprClose)
    (stop : Token), Token.scan ("\x7b\x7b " ++ e.source ++ " \x7d\x7d") =
      .ok (opening.val :: (ts ++ [closing.val, stop])) ∧ stop.kind = .eof ∧ Derives e ts := by
  have hsource : ("\x7b\x7b " ++ e.source ++ " \x7d\x7d").toList =
      '{' :: '{' :: ' ' :: (e.source.toList ++ ' ' :: ['}', '}']) ++ [] := by
    simp
  have hopens : ('{', TokenKind.exprOpen, TokenKind.exprClose) ∈ tagMarks := by decide
  obtain ⟨_, ⟨opening, ts, closing, rfl, hts⟩, hscan⟩ :=
    cuts_tag hopens (by decide) (h.cuts (follows_cons rfl (['}', '}'] ++ []))) .start
  have hscan' := hscan _ (scanFrom_outside_nil _)
  rw [← hsource, List.cons_append, List.append_assoc, ← Token.scan_eq] at hscan'
  exact ⟨opening, ts, closing, _, hscan', rfl, hts⟩

/-- The tokens of a source end with the only token that marks an end. -/
theorem forall_ne_eof_of_scan {source : String} {front : List Token} {stop : Token}
    (h : Token.scan source = .ok (front ++ [stop])) : ∀ t ∈ front, t.kind ≠ .eof := by
  obtain ⟨segments, hlaid, -, htokens⟩ := Token.scan_laid h
  obtain ⟨front', stop', hends, -, -, hfront⟩ := hlaid.endsOnce
  rw [htokens] at hends
  obtain ⟨rfl, -⟩ := List.append_inj' hends rfl
  exact hfront

theorem ReadsBack.parsed (h : ReadsBack e) : ∃ p q e',
    Body.ofSource ("\x7b\x7b " ++ e.source ++ " \x7d\x7d") = .ok ⟨p, [.output q e']⟩ ∧ e'.unplaced = e.unplaced := by
  obtain ⟨opening, ts, closing, stop, hscan, hstop, hderives⟩ := h.scan
  obtain ⟨d, rfl, hd⟩ := hderives.expression .or
  have htokens : opening.val :: (d.tokens ++ [closing.val, stop]) =
      (Nodes.output opening d closing .nil).tokens ++ [stop] := by
    simp [Nodes.tokens]
  rw [htokens] at hscan
  have hparse := Nodes.parsed _ (forall_ne_eof_of_scan hscan) hstop
  refine ⟨opening.val.start, opening.val.start, d.tree, bind_eq_ok_iff.mpr ⟨_, hscan, hparse.trans ?_⟩, hd⟩
  rw [Nodes.body, Nodes.trees, Nodes.trees, Nodes.tokens]
  rfl

/-! ### Expressions that come out of the parser -/

theorem Expr.Legible.printable (h : e.Legible)
    (hfinite : ∀ p n, e = .literal p (.number n) → Number.Finite n)
    (hdecimal : ∀ p n, e = .literal p (.number n) → Number.ofString? (Number.plainText n) = some n)
    (hmember : ∀ p target name, e = .member p target name → target.isNumber = false) : e.Printable := by
  refine h.printable_of_clean ?_
  cases e with
  | literal p v =>
    cases v with
    | number n =>
      refine ⟨hfinite p n rfl, ?_⟩
      rw [Number.text_eq_plainText h]
      exact hdecimal p n rfl
    | boolean b => trivial
    | string s => trivial
  | member p target word => exact hmember p target word rfl
  | _ => trivial

/-- An expression that comes out of the parser is printed so that its text, in a tag of its own, parses to a single
    output of the same expression up to places, unless it has a number that is not finite or an attribute of a bare
    number. That the decimal text of a finite number reads back to it is taken from those who write and read it. -/
theorem expression_source_reads_back {source : String} {body : Body} (hsource : Body.ofSource source = .ok body)
    {root : Expr} (hroot : root ∈ body.expressions) (he : e ∈ root.subtrees)
    (hfinite : ∀ p n, .literal p (.number n) ∈ e.subtrees → Number.Finite n)
    (hdecimal : ∀ p n, .literal p (.number n) ∈ e.subtrees → Number.ofString? (Number.plainText n) = some n)
    (hmember : ∀ p target name, .member p target name ∈ e.subtrees → target.isNumber = false) :
    ∃ p q e', Body.ofSource ("\x7b\x7b " ++ e.source ++ " \x7d\x7d") = .ok ⟨p, [.output q e']⟩ ∧
      e'.unplaced = e.unplaced := by
  have hprintable : ∀ s ∈ e.subtrees, s.Printable := by
    intro s hs
    have hlegible := Body.legible_of_ofSource hsource root hroot s (Expr.subtrees_subset root e he hs)
    exact hlegible.printable (fun p n heq => hfinite p n (heq ▸ hs)) (fun p n heq => hdecimal p n (heq ▸ hs))
      fun p target name heq => hmember p target name (heq ▸ hs)
  exact (e.readsBack hprintable).parsed

/-- A number as an index of an attribute, next to a string that closes the tag unless it is read as one. -/
theorem expression_source_reads_back_sum :
    let source := "\x7b\x7b a.b[1.5] + '\x7d\x7d' \x7d\x7d"
    let e : Expr := .binary ⟨1, 13⟩ .add (.index ⟨1, 7⟩ (.member ⟨1, 6⟩ (.name ⟨1, 4⟩ "a") "b")
      (.literal ⟨1, 8⟩ (.number 1.5))) (.literal ⟨1, 15⟩ (.string "\x7d\x7d"))
    Body.ofSource source = .ok ⟨⟨1, 1⟩, [.output ⟨1, 1⟩ e]⟩ ∧
      ∃ p q e', Body.ofSource "\x7b\x7b (a.b[1.5] + '\x7d\x7d') \x7d\x7d" = .ok ⟨p, [.output q e']⟩ ∧
        e'.unplaced = e.unplaced := by
  intro source e
  let opening : Word .exprOpen := ⟨⟨.exprOpen, "\x7b\x7b", ⟨1, 1⟩⟩, rfl⟩
  let a : Word .identifier := ⟨⟨.identifier, "a", ⟨1, 4⟩⟩, rfl⟩
  let dot : Word .dot := ⟨⟨.dot, ".", ⟨1, 5⟩⟩, rfl⟩
  let b : Word .identifier := ⟨⟨.identifier, "b", ⟨1, 6⟩⟩, rfl⟩
  let left : Word .leftBracket := ⟨⟨.leftBracket, "[", ⟨1, 7⟩⟩, rfl⟩
  let number : Word .number := ⟨⟨.number, "1.5", ⟨1, 8⟩⟩, rfl⟩
  let right : Word .rightBracket := ⟨⟨.rightBracket, "]", ⟨1, 11⟩⟩, rfl⟩
  let plus : Token := ⟨.plus, "+", ⟨1, 13⟩⟩
  let string : Word .string := ⟨⟨.string, "\x7d\x7d", ⟨1, 15⟩⟩, rfl⟩
  let closing : Word .exprClose := ⟨⟨.exprClose, "\x7d\x7d", ⟨1, 20⟩⟩, rfl⟩
  let stop : Token := ⟨.eof, "", ⟨1, 22⟩⟩
  have hscan : Token.scan source = .ok [opening.val, a.val, dot.val, b.val, left.val, number.val, right.val, plus,
      string.val, closing.val, stop] := by
    decide +kernel
  -- The derivation, with the index and the operands as expressions of the levels they stand at.
  have hvalue : Number.ofString? number.val.text = some 1.5 := by decide +kernel
  obtain ⟨di, hi, hiTree⟩ :=
    (Expression.applied (.number ⟨number, 1.5, hvalue⟩) .nil).exists_looser (l := .or) (by decide)
  obtain ⟨dl, hl, hlTree⟩ :=
    (Expression.applied (.name a) (.member dot b (.index left di right .nil))).exists_looser
      (l := Level.next .sum) (by decide)
  obtain ⟨dr, hr, hrTree⟩ :=
    (Expression.applied (.string string) .nil).exists_looser (l := Level.next .sum) (by decide)
  obtain ⟨d, hd, hdTree⟩ :=
    (Expression.chain (l := .sum) (by decide) dl (.cons (.word plus .add (by decide)) dr .nil)).exists_looser
      (l := .or) (by decide)
  have htokens : (Nodes.output opening d closing .nil).tokens = [opening.val, a.val, dot.val, b.val, left.val,
      number.val, right.val, plus, string.val, closing.val] := by
    simp [Nodes.tokens, Expression.tokens, Chain.tokens, Primary.tokens, Postfixes.tokens, Operator.tokens, hd, hl,
      hr, hi]
  have htree : d.tree = e := by
    rw [hdTree, Expression.tree, Chain.tree, Chain.tree, hlTree, hrTree]
    simp only [Expression.tree, Primary.tree, Postfixes.tree, hiTree]
    rfl
  have hstop : stop.kind = .eof := rfl
  have hparse := Nodes.parsed (.output opening d closing .nil) (by rw [htokens]; decide) hstop
  rw [htokens, Nodes.body, Nodes.trees, Nodes.trees, htokens, htree] at hparse
  have hsource : Body.ofSource source = .ok ⟨⟨1, 1⟩, [.output ⟨1, 1⟩ e]⟩ := bind_eq_ok_iff.mpr ⟨_, hscan, hparse⟩
  have hnumber : ∀ p n, Expr.literal p (.number n) ∈ e.subtrees → n = 1.5 := by
    intro p n h
    obtain ⟨-, rfl⟩ : p = ⟨1, 8⟩ ∧ n = 1.5 := by simpa [e, Expr.subtrees] using h
    rfl
  have hmember : ∀ p target name, Expr.member p target name ∈ e.subtrees → target.isNumber = false := by
    intro p target name h
    obtain ⟨-, rfl, -⟩ : p = ⟨1, 6⟩ ∧ target = .name ⟨1, 4⟩ "a" ∧ name = "b" := by
      simpa [e, Expr.subtrees] using h
    rfl
  have hroot : e ∈ (Body.mk ⟨1, 1⟩ [.output ⟨1, 1⟩ e]).expressions := by
    simp [Body.expressions, Node.expressionsOf, Node.expressions]
  have hback := expression_source_reads_back hsource hroot e.mem_subtrees_self (fun p n h => hnumber p n h ▸ ⟨_, _, _, rfl⟩)
    (fun p n h => hnumber p n h ▸ (by decide +kernel)) hmember
  have htext : Number.text 1.5 = "1.5" := by decide +kernel
  have hprinted : e.source = "(a.b[1.5] + '\x7d\x7d')" := by
    simp only [e, Expr.source, Literal.source, htext]
    rfl
  rw [hprinted] at hback
  exact ⟨hsource, hback⟩

end TemplatedSql
