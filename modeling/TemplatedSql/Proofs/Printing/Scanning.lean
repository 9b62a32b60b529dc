import TemplatedSql.Proofs.Grammar.Derivation
import TemplatedSql.Proofs.Number.Text
import TemplatedSql.Proofs.Printing.Legible

/-! # Cutting what is written into tokens

Text in a tag is cut piece by piece: what a piece is cut into depends on what follows it only in so far as a longer
token could start there. -/

namespace TemplatedSql

open TemplatedSql.Grammar (Word Numeral Operator operators)

/-- Inside a tag, the characters in front of `rest` are cut into tokens with a property, wherever they stand. -/
def Cuts (raw rest : List Char) (P : List Token → Prop) : Prop :=
  ∀ (tag : Opening) (p : Position), ∃ tokens, P tokens ∧
    ∀ more, scanFrom (.inside tag) rest (p.after raw) = .ok more →
      scanFrom (.inside tag) (raw ++ rest) p = .ok (tokens ++ more)

/-- Tokens with one property and after them tokens with another. -/
def Both (P Q : List Token → Prop) (ts : List Token) : Prop :=
  ∃ us vs, ts = us ++ vs ∧ P us ∧ Q vs

/-- A single token. -/
def Single (kind : TokenKind) (text : String) (ts : List Token) : Prop :=
  ∃ t : Word kind, t.val.text = text ∧ ts = [t.val]

variable {raw raw' rest : List Char} {c : Char} {P Q : List Token → Prop}

namespace Cuts

theorem mono (h : Cuts raw rest P) (hP : ∀ ts, P ts → Q ts) : Cuts raw rest Q := by
  intro tag p
  obtain ⟨tokens, htokens, hscan⟩ := h tag p
  exact ⟨tokens, hP tokens htokens, hscan⟩

theorem append (h : Cuts raw (raw' ++ rest) P) (h' : Cuts raw' rest Q) : Cuts (raw ++ raw') rest (Both P Q) := by
  intro tag p
  obtain ⟨us, hus, hscan⟩ := h tag p
  obtain ⟨vs, hvs, hscan'⟩ := h' tag (p.after raw)
  refine ⟨us ++ vs, ⟨us, vs, rfl, hus, hvs⟩, fun more hmore => ?_⟩
  rw [Position.after_append] at hmore
  rw [List.append_assoc, List.append_assoc]
  exact hscan _ (hscan' more hmore)

/-- White space is cut into nothing. -/
theorem gap (hc : isGap c = true) (h : Cuts raw rest P) : Cuts (c :: raw) rest P := by
  intro tag p
  obtain ⟨tokens, htokens, hscan⟩ := h tag (p.next c)
  refine ⟨tokens, htokens, fun more hmore => ?_⟩
  rw [List.cons_append, scanFrom, if_pos hc]
  exact hscan more hmore

/-- A token that does not close the tag. -/
theorem token {kind : TokenKind} {text : String} (hgap : isGap c = false) (hclose : kind.isClose = false)
    (h : lexeme c (raw ++ rest) = .ok ⟨kind, text, raw.length⟩) : Cuts (c :: raw) rest (Single kind text) := by
  intro tag p
  refine ⟨[⟨kind, text, p⟩], ⟨⟨⟨kind, text, p⟩, rfl⟩, rfl, rfl⟩, fun more hmore => ?_⟩
  have hkind : ¬(kind = .exprClose ∨ kind = .stmtClose) := by
    rintro (rfl | rfl) <;> cases hclose
  rw [List.cons_append, scanFrom, hgap, if_neg Bool.false_ne_true, h]
  dsimp only
  rw [if_neg hkind, List.take_left, List.drop_left]
  rw [Position.after_cons] at hmore ⊢
  rw [hmore]
  rfl

end Cuts

/-! ### Words, numbers and strings -/

theorem isClose_of_isInner {kind : TokenKind} (h : kind.isInner = true) : kind.isClose = false := by
  cases kind <;> first | rfl | cases h

/-- A word ends where no word can go on. -/
theorem cuts_word (hstart : isWordStart c = true) (hpart : ∀ d ∈ raw, isWordPart d = true)
    (hrest : ∀ d ∈ rest.head?, isWordPart d = false) :
    Cuts (c :: raw) rest (Single (wordKind (.ofList (c :: raw))) (.ofList (c :: raw))) := by
  refine .token (isGap_eq_false (by decide) hstart) (isClose_of_isInner (wordKind_inner _)) ?_
  rw [lexeme, if_pos hstart, takeWhile_append_of_head hpart hrest]

/-- A number ends where no number can go on. -/
theorem cuts_number {n : Float} (hstart : c.isDigit = true) (hpart : ∀ d ∈ raw, isNumberPart d = true)
    (hrest : ∀ d ∈ rest.head?, isNumberPart d = false) (hvalue : Number.ofString? (.ofList (c :: raw)) = some n) :
    Cuts (c :: raw) rest (Single .number (.ofList (c :: raw))) := by
  refine .token (isGap_eq_false (by decide) hstart) rfl ?_
  rw [lexeme, isWordStart_of_isDigit hstart, if_neg Bool.false_ne_true, if_pos hstart,
    takeWhile_append_of_head hpart hrest]
  dsimp only
  rw [hvalue]
  rfl

/-- Digits and points are read as a number. -/
theorem cuts_numeral {n : Float} (hchars : Number.Numerical raw)
    (hvalue : Number.ofString? (.ofList raw) = some n) (hrest : ∀ d ∈ rest.head?, isNumberPart d = false) :
    Cuts raw rest fun ts => ∃ numeral : Numeral, ts = [numeral.token.val] ∧ numeral.value = n := by
  obtain ⟨c, part, rfl, hstart, hpart⟩ := hchars
  have hnumber : ∀ d ∈ part, isNumberPart d = true := by
    intro d hd
    rcases hpart d hd with hdigit | rfl
    · simp [isNumberPart, isWordPart, Char.isAlphanum, hdigit]
    · rfl
  refine (cuts_number hstart hnumber hrest hvalue).mono ?_
  rintro ts ⟨t, ht, rfl⟩
  exact ⟨⟨t, n, by rw [ht, hvalue]⟩, rfl, rfl⟩

theorem cuts_string (s : String) : Cuts (Text.quote s).toList rest (Single .string s) := by
  rw [Text.quote, String.toList_ofList]
  refine .token rfl rfl ?_
  have hread := Text.readQuoted_escape s.toList rest
  rw [List.append_assoc, List.singleton_append, List.length_append, List.length_singleton, lexeme]
  rw [hread]
  simp [isWordStart]

/-! ### Operators -/

/-- An operator, of one token or two. -/
def IsOperator (op : BinaryOp) (ts : List Token) : Prop :=
  ∃ l, ∃ o : Operator l, l ≠ .operand ∧ o.op = op ∧ ts = o.tokens

theorem BinaryOp.spelled (op : BinaryOp) (hop : op ≠ .notIn) : ∃ kind l c raw, (kind, l, op) ∈ operators ∧
    l ≠ .operand ∧ op.symbol.toList = c :: raw ∧ isGap c = false ∧ kind.isClose = false ∧
    ∀ rest, lexeme c (raw ++ ' ' :: rest) = .ok ⟨kind, op.symbol, raw.length⟩ := by
  cases op with
  | or => exact ⟨.orWord, .or, 'o', ['r'], by decide, by decide, rfl, rfl, rfl, fun _ => rfl⟩
  | and => exact ⟨.andWord, .and, 'a', ['n', 'd'], by decide, by decide, rfl, rfl, rfl, fun _ => rfl⟩
  | eq => exact ⟨.eq, .comparison, '=', ['='], by decide, by decide, rfl, rfl, rfl, fun _ => rfl⟩
  | notEq => exact ⟨.notEq, .comparison, '!', ['='], by decide, by decide, rfl, rfl, rfl, fun _ => rfl⟩
  | lt => exact ⟨.lt, .comparison, '<', [], by decide, by decide, rfl, rfl, rfl, fun _ => rfl⟩
  | ltEq => exact ⟨.ltEq, .comparison, '<', ['='], by decide, by decide, rfl, rfl, rfl, fun _ => rfl⟩
  | gt => exact ⟨.gt, .comparison, '>', [], by decide, by decide, rfl, rfl, rfl, fun _ => rfl⟩
  | gtEq => exact ⟨.gtEq, .comparison, '>', ['='], by decide, by decide, rfl, rfl, rfl, fun _ => rfl⟩
  | isIn => exact ⟨.inWord, .comparison, 'i', ['n'], by decide, by decide, rfl, rfl, rfl, fun _ => rfl⟩
  | notIn => exact absurd rfl hop
  | add => exact ⟨.plus, .sum, '+', [], by decide, by decide, rfl, rfl, rfl, fun _ => rfl⟩
  | sub => exact ⟨.minus, .sum, '-', [], by decide, by decide, rfl, rfl, rfl, fun _ => rfl⟩
  | mul => exact ⟨.star, .product, '*', [], by decide, by decide, rfl, rfl, rfl, fun _ => rfl⟩
  | div => exact ⟨.slash, .product, '/', [], by decide, by decide, rfl, rfl, rfl, fun _ => rfl⟩
  | mod => exact ⟨.percent, .product, '%', [], by decide, by decide, rfl, rfl, rfl, fun _ => rfl⟩

theorem cuts_operator (op : BinaryOp) : Cuts op.symbol.toList (' ' :: rest) (IsOperator op) := by
  by_cases hop : op = .notIn
  · subst hop
    have hnot : Cuts ['n', 'o', 't'] (' ' :: 'i' :: 'n' :: ' ' :: rest) (Single .notWord "not") :=
      .token rfl rfl rfl
    have hin : Cuts [' ', 'i', 'n'] (' ' :: rest) (Single .inWord "in") :=
      .gap rfl (.token rfl rfl rfl)
    refine (hnot.append hin).mono ?_
    rintro ts ⟨_, _, rfl, ⟨sign, -, rfl⟩, last, -, rfl⟩
    exact ⟨.comparison, .notIn sign last rfl, by decide, rfl, rfl⟩
  · obtain ⟨kind, l, c, raw, hmem, hl, hsymbol, hgap, hclose, hlexeme⟩ := op.spelled hop
    rw [hsymbol]
    refine (Cuts.token hgap hclose (hlexeme rest)).mono ?_
    rintro ts ⟨t, -, rfl⟩
    exact ⟨l, .word t.val op (by rw [t.property]; exact hmem), hl, rfl, rfl⟩

end TemplatedSql
