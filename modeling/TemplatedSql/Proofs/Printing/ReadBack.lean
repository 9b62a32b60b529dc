import TemplatedSql.Proofs.Printing.Scanning
import TemplatedSql.Tree.Printer

/-! # Expressions are read back as they were written

The text of an expression is cut into the tokens of a derivation, whose tree is the expression again up to the
places in it. The recursion is on the expression: every operation is written between parentheses, so each part is
derived on its own, and what stands after a part never goes on with its last token. -/

namespace TemplatedSql

open TemplatedSql.Grammar
open TemplatedSql.Parser (Level)

namespace Grammar

/-! ### Derivations of parts -/

def Postfixes.append : Postfixes → Postfixes → Postfixes
  | .nil, last => last
  | .call opening arguments more, last => .call opening arguments (more.append last)
  | .index opening inner closing more, last => .index opening inner closing (more.append last)
  | .member dot name more, last => .member dot name (more.append last)

theorem Postfixes.tokens_append : ∀ (d last : Postfixes), (d.append last).tokens = d.tokens ++ last.tokens
  | .nil, last => by
    rw [Postfixes.append, Postfixes.tokens, List.nil_append]
  | .call opening arguments more, last => by
    rw [Postfixes.append, Postfixes.tokens, Postfixes.tokens, more.tokens_append, List.cons_append, List.append_assoc]
  | .index opening inner closing more, last => by
    rw [Postfixes.append, Postfixes.tokens, Postfixes.tokens, more.tokens_append, List.cons_append, List.append_assoc,
      List.cons_append]
  | .member dot name more, last => by
    rw [Postfixes.append, Postfixes.tokens, Postfixes.tokens, more.tokens_append, List.cons_append, List.cons_append]

theorem Postfixes.tree_append : ∀ (d last : Postfixes) (target : Expr),
    (d.append last).tree target = last.tree (d.tree target)
  | .nil, last, target => by
    rw [Postfixes.append, Postfixes.tree]
  | .call opening arguments more, last, target | .index opening inner closing more, last, target
  | .member dot name more, last, target => by
    rw [Postfixes.append, Postfixes.tree, Postfixes.tree, more.tree_append]

/-- An expression of a level is one of every looser level. -/
theorem Expression.exists_looser {m : Level} (d : Expression m) {l : Level} (h : m.rank ≤ l.rank) :
    ∃ d' : Expression l, d'.tokens = d.tokens ∧ d'.tree = d.tree := by
  induction hn : l.rank using Nat.strongRecOn generalizing l with
  | _ n ih =>
    by_cases hml : m = l
    · subst hml
      exact ⟨d, rfl, rfl⟩
    · have hnext : l ≠ .operand ∧ m.rank ≤ l.next.rank := by
        revert h hml
        cases m <;> cases l <;> decide
      obtain ⟨d', htokens, htree⟩ := ih l.next.rank (hn ▸ Level.rank_next_lt hnext.1) hnext.2 rfl
      refine ⟨.chain hnext.1 d' .nil, ?_, ?_⟩
      · rw [Expression.tokens, Chain.tokens, List.append_nil, htokens]
      · rw [Expression.tree, Chain.tree, htree]

end Grammar

/-! ### What is read back -/

attribute [simp] Expr.source Expr.unplaced

/-- Whether an expression is a number as it stands. -/
def Expr.isNumber : Expr → Bool
  | .literal _ (.number _) => true
  | _ => false

/-- What an expression needs to be read back, as far as it is not for its parts. -/
def Expr.Printable : Expr → Prop
  | .literal _ (.number n) => Number.Numerical (Number.text n).toList ∧ Number.ofString? (Number.text n) = some n
  | .name _ word => IsName word
  | .member _ target word => IsName word ∧ target.isNumber = false
  | .call _ _ arguments => ProperlyNamed [] arguments
  | _ => True

/-- The tokens of an expression that needs no parentheses. -/
def Derives (e : Expr) (ts : List Token) : Prop :=
  ∃ (target : Primary) (postfixes : Postfixes), ts = target.tokens ++ postfixes.tokens ∧
    (postfixes.tree target.tree).unplaced = e.unplaced

theorem Derives.expression {e : Expr} {ts : List Token} (h : Derives e ts) (l : Level) :
    ∃ d : Expression l, d.tokens = ts ∧ d.tree.unplaced = e.unplaced := by
  obtain ⟨target, postfixes, rfl, htree⟩ := h
  obtain ⟨d, htokens, hd⟩ := (Expression.applied target postfixes).exists_looser (Nat.succ_le_of_lt l.rank_pos)
  refine ⟨d, by rw [htokens, Expression.tokens], ?_⟩
  rw [hd, Expression.tree, htree]

/-- What follows an expression does not go on with its last token. -/
def Follows (e : Expr) (rest : List Char) : Prop :=
  ∃ c more, rest = c :: more ∧ isWordPart c = false ∧ (e.isNumber = true → c ≠ '.')

theorem follows_cons {e : Expr} {c : Char} (hc : isNumberPart c = false) (more : List Char) :
    Follows e (c :: more) := by
  rw [isNumberPart, Bool.or_eq_false_iff, beq_eq_false_iff_ne] at hc
  exact ⟨c, more, rfl, hc.1, fun _ => hc.2⟩

/-- An expression is read back from its text. The text starts in a way that no sign before it goes on with. -/
structure ReadsBack (e : Expr) : Prop where
  head : ∃ c cs, e.source.toList = c :: cs ∧ c ∉ ['=', '}', '%']
  cuts : ∀ {rest : List Char}, Follows e rest → Cuts e.source.toList rest (Derives e)

variable {p : Position} {rest : List Char}

theorem cuts_name {word : String} (h : IsName word) (hrest : ∀ d ∈ rest.head?, isWordPart d = false) :
    Cuts word.toList rest (Single .identifier word) := by
  obtain ⟨c, part, rfl, hstart, hpart, hkind⟩ := h
  have hcuts := cuts_word hstart hpart hrest
  rw [hkind] at hcuts
  rw [String.toList_ofList]
  exact hcuts

theorem Follows.head {e : Expr} (h : Follows e rest) : ∀ d ∈ rest.head?, isWordPart d = false := by
  obtain ⟨c, more, rfl, hc, -⟩ := h
  rintro d ⟨⟩
  exact hc

/-! ### Expressions without parts -/

/-- A single token is a derivation without postfixes. -/
theorem derives_primary {e : Expr} (d : Primary) (h : d.tree.unplaced = e.unplaced) : Derives e d.tokens :=
  ⟨d, .nil, by rw [Postfixes.tokens, List.append_nil], by rw [Postfixes.tree, h]⟩

theorem not_mem_of_starts {q : Char → Bool} {cs : List Char} {c : Char} (hcs : cs.any q = false)
    (hc : q c = true) : c ∉ cs :=
  fun hmem => List.any_eq_false.mp hcs c hmem hc

theorem readsBack_word {e : Expr} {c : Char} {part : List Char} (hsource : e.source.toList = c :: part)
    (hstart : isWordStart c = true) (hpart : ∀ d ∈ part, isWordPart d = true)
    (h : ∀ t : Word (wordKind (.ofList (c :: part))), t.val.text = .ofList (c :: part) → Derives e [t.val]) :
    ReadsBack e := by
  constructor
  · exact ⟨c, part, hsource, not_mem_of_starts (by decide) hstart⟩
  · intro rest hrest
    rw [hsource]
    refine (cuts_word hstart hpart hrest.head).mono ?_
    rintro ts ⟨t, ht, rfl⟩
    exact h t ht

theorem readsBack_name {word : String} (h : IsName word) : ReadsBack (.name p word) := by
  obtain ⟨c, part, rfl, hstart, hpart, hkind⟩ := h
  refine readsBack_word (by rw [Expr.source, String.toList_ofList]) hstart hpart ?_
  rw [hkind]
  intro t ht
  have hd := derives_primary (e := .name p (.ofList (c :: part))) (.name t) (by
    rw [Primary.tree, Expr.unplaced, Expr.unplaced, ht])
  rwa [Primary.tokens] at hd

theorem readsBack_boolean (b : Bool) : ReadsBack (.literal p (.boolean b)) := by
  cases b with
  | true =>
    have hsource : (Expr.literal p (.boolean true)).source.toList = 't' :: ['r', 'u', 'e'] := by
      rw [Expr.source]
      rfl
    refine readsBack_word hsource rfl (List.all_eq_true.mp rfl) ?_
    rw [show wordKind (.ofList ['t', 'r', 'u', 'e']) = .trueWord from rfl]
    intro t _
    have hd := derives_primary (e := .literal p (.boolean true)) (.trueWord t) (by
      rw [Primary.tree, Expr.unplaced, Expr.unplaced])
    rwa [Primary.tokens] at hd
  | false =>
    have hsource : (Expr.literal p (.boolean false)).source.toList = 'f' :: ['a', 'l', 's', 'e'] := by
      rw [Expr.source]
      rfl
    refine readsBack_word hsource rfl (List.all_eq_true.mp rfl) ?_
    rw [show wordKind (.ofList ['f', 'a', 'l', 's', 'e']) = .falseWord from rfl]
    intro t _
    have hd := derives_primary (e := .literal p (.boolean false)) (.falseWord t) (by
      rw [Primary.tree, Expr.unplaced, Expr.unplaced])
    rwa [Primary.tokens] at hd

theorem readsBack_string (s : String) : ReadsBack (.literal p (.string s)) := by
  constructor
  · exact ⟨'\'', _, by rw [Expr.source, Literal.source, Text.quote, String.toList_ofList]; rfl, by decide⟩
  · intro rest _
    rw [Expr.source, Literal.source]
    refine (cuts_string s).mono ?_
    rintro ts ⟨t, rfl, rfl⟩
    have hd := derives_primary (e := .literal p (.string t.val.text)) (.string t)
      (by rw [Primary.tree, Expr.unplaced, Expr.unplaced])
    rwa [Primary.tokens] at hd

theorem readsBack_number {n : Float} (hchars : Number.Numerical (Number.text n).toList)
    (hvalue : Number.ofString? (Number.text n) = some n) : ReadsBack (.literal p (.number n)) := by
  rw [← String.ofList_toList (s := Number.text n)] at hvalue
  constructor
  · obtain ⟨c, part, hsource, hstart, -⟩ := hchars
    exact ⟨c, part, by rw [Expr.source, Literal.source, hsource], not_mem_of_starts (by decide) hstart⟩
  · rintro rest ⟨d, more, rfl, hword, hpoint⟩
    have hrest : ∀ e ∈ (d :: more).head?, isNumberPart e = false := by
      rintro e ⟨⟩
      rw [isNumberPart, hword, Bool.false_or, beq_eq_false_iff_ne]
      exact hpoint rfl
    rw [Expr.source, Literal.source]
    refine (cuts_numeral hchars hvalue hrest).mono ?_
    rintro ts ⟨numeral, rfl, rfl⟩
    have hd := derives_primary (e := .literal p (.number numeral.value)) (.number numeral)
      (by rw [Primary.tree, Expr.unplaced, Expr.unplaced])
    rwa [Primary.tokens] at hd

/-! ### Operations -/

theorem cuts_punctuation (c : Char) (kind : TokenKind) (h : (c, kind) ∈ [('(', .leftParen), (')', .rightParen),
    ('[', .leftBracket), (']', .rightBracket), (',', .comma), ('.', .dot)]) :
    Cuts [c] rest (Single kind (.ofList [c])) := by
  simp only [List.mem_cons, Prod.mk.injEq, List.not_mem_nil, or_false] at h
  rcases h with h | h | h | h | h | h <;> obtain ⟨rfl, rfl⟩ := h <;> exact .token rfl rfl rfl

/-- A sign that is part of a longer token where an equals sign or the end of a tag follows it. -/
theorem cuts_sign (c : Char) (kind : TokenKind) (h : (c, kind) ∈ [('-', .minus), ('=', .assign)]) {d : Char}
    (hd : d ∉ ['=', '}', '%']) : Cuts [c] (d :: rest) (Single kind (.ofList [c])) := by
  simp only [List.mem_cons, List.not_mem_nil, or_false, not_or] at hd
  obtain ⟨hequals, hbrace, hpercent⟩ := hd
  simp only [List.mem_cons, Prod.mk.injEq, List.not_mem_nil, or_false] at h
  rcases h with h | h <;> obtain ⟨rfl, rfl⟩ := h <;> refine .token rfl rfl ?_
  · simp [lexeme, isWordStart, symbols, List.isPrefixOf, Ne.symm hbrace, Ne.symm hpercent]
  · simp [lexeme, isWordStart, symbols, List.isPrefixOf, Ne.symm hequals]

/-- An expression between parentheses needs no others. -/
theorem derives_paren {e : Expr} {l : Level} (opening : Word .leftParen) (d : Expression l)
    (closing : Word .rightParen) (h : d.tree.unplaced = e.unplaced) :
    Derives e (opening.val :: (d.tokens ++ [closing.val])) := by
  obtain ⟨d', htokens, htree⟩ := d.exists_looser (l := .or) (by cases l <;> decide)
  have hd := derives_primary (e := e) (.paren opening d' closing) (by rw [Primary.tree, htree, h])
  rwa [Primary.tokens, htokens] at hd

theorem ReadsBack.binary {op : BinaryOp} {left right : Expr} (hleft : ReadsBack left) (hright : ReadsBack right) :
    ReadsBack (.binary p op left right) := by
  have hsource : (Expr.binary p op left right).source.toList = ['('] ++ (left.source.toList ++
      ((' ' :: op.symbol.toList) ++ ((' ' :: right.source.toList) ++ [')']))) := by
    simp
  constructor
  · rw [hsource]
    exact ⟨'(', _, rfl, by decide⟩
  · intro rest _
    rw [hsource]
    refine ((cuts_punctuation '(' .leftParen (by decide)).append <|
      (hleft.cuts (follows_cons rfl _)).append <|
      ((cuts_operator op).gap rfl).append <|
      ((hright.cuts (follows_cons rfl _)).gap rfl).append <|
      cuts_punctuation ')' .rightParen (by decide)).mono ?_
    rintro ts ⟨_, _, rfl, ⟨opening, -, rfl⟩, lts, _, rfl, hl, _, _, rfl, ⟨l, o, hlevel, rfl, rfl⟩, rts, _, rfl, hr,
      closing, -, rfl⟩
    obtain ⟨dl, rfl, hdl⟩ := hl.expression l.next
    obtain ⟨dr, rfl, hdr⟩ := hr.expression l.next
    have hd := derives_paren (e := .binary p o.op left right) opening (.chain hlevel dl (.cons o dr .nil)) closing (by
      rw [Expression.tree, Chain.tree, Chain.tree, Expr.unplaced, Expr.unplaced, hdl, hdr])
    simpa [Expression.tokens, Chain.tokens] using hd

theorem ReadsBack.unary {op : UnaryOp} {operand : Expr} (h : ReadsBack operand) : ReadsBack (.unary p op operand) := by
  cases op with
  | not =>
    have hsource : (Expr.unary p .not operand).source.toList = ['('] ++ (['n', 'o', 't'] ++
        ((' ' :: operand.source.toList) ++ [')'])) := by
      simp
    constructor
    · rw [hsource]
      exact ⟨'(', _, rfl, by decide⟩
    · intro rest _
      have hnot : ∀ more, Cuts ['n', 'o', 't'] (' ' :: more) (Single .notWord "not") := fun _ => .token rfl rfl rfl
      rw [hsource]
      refine ((cuts_punctuation '(' .leftParen (by decide)).append <| (hnot _).append <|
        ((h.cuts (follows_cons rfl _)).gap rfl).append <| cuts_punctuation ')' .rightParen (by decide)).mono ?_
      rintro ts ⟨_, _, rfl, ⟨opening, -, rfl⟩, _, _, rfl, ⟨sign, -, rfl⟩, us, _, rfl, hd, closing, -, rfl⟩
      obtain ⟨d, rfl, htree⟩ := hd.expression .not
      have hd := derives_paren (e := .unary p .not operand) opening (.not sign d) closing (by
        rw [Expression.tree, Expr.unplaced, Expr.unplaced, htree])
      simpa [Expression.tokens] using hd
  | neg =>
    have hsource : (Expr.unary p .neg operand).source.toList =
        ['('] ++ (['-'] ++ (operand.source.toList ++ [')'])) := by
      simp
    constructor
    · rw [hsource]
      exact ⟨'(', _, rfl, by decide⟩
    · intro rest _
      obtain ⟨c, cs, hhead, hc⟩ := h.head
      have hminus : Cuts ['-'] ((operand.source.toList ++ [')']) ++ rest) (Single .minus (.ofList ['-'])) := by
        rw [hhead]
        exact cuts_sign '-' .minus (by decide) hc
      rw [hsource]
      refine ((cuts_punctuation '(' .leftParen (by decide)).append <| hminus.append <|
        (h.cuts (follows_cons rfl _)).append <| cuts_punctuation ')' .rightParen (by decide)).mono ?_
      rintro ts ⟨_, _, rfl, ⟨opening, -, rfl⟩, _, _, rfl, ⟨sign, -, rfl⟩, us, _, rfl, hd, closing, -, rfl⟩
      obtain ⟨d, rfl, htree⟩ := hd.expression .sign
      have hd := derives_paren (e := .unary p .neg operand) opening (.minus sign d) closing (by
        rw [Expression.tree, Expr.unplaced, Expr.unplaced, htree])
      simpa [Expression.tokens] using hd

/-! ### Calls, indexes and attributes -/

/-- A postfix goes behind those that are there. -/
theorem Derives.applied {target e : Expr} {ts : List Token} (h : Derives target ts) (last : Postfixes)
    (htree : ∀ t : Expr, t.unplaced = target.unplaced → (last.tree t).unplaced = e.unplaced) :
    Derives e (ts ++ last.tokens) := by
  obtain ⟨d, postfixes, rfl, hd⟩ := h
  exact ⟨d, postfixes.append last, by rw [Postfixes.tokens_append, List.append_assoc], by
    rw [Postfixes.tree_append, htree _ hd]⟩

theorem ReadsBack.head_append {e : Expr} (h : ReadsBack e) (more : List Char) :
    ∃ c cs, e.source.toList ++ more = c :: cs ∧ c ∉ ['=', '}', '%'] := by
  obtain ⟨c, cs, hhead, hc⟩ := h.head
  exact ⟨c, cs ++ more, by rw [hhead]; rfl, hc⟩

theorem ReadsBack.member {target : Expr} {word : String} (h : ReadsBack target) (hword : IsName word)
    (hnumber : target.isNumber = false) : ReadsBack (.member p target word) := by
  have hsource : (Expr.member p target word).source.toList = target.source.toList ++ (['.'] ++ word.toList) := by
    simp
  constructor
  · rw [hsource]
    exact h.head_append _
  · intro rest hrest
    have hfollows : Follows target ((['.'] ++ word.toList) ++ rest) := by
      refine ⟨'.', _, rfl, rfl, fun hn => ?_⟩
      rw [hnumber] at hn
      cases hn
    rw [hsource]
    refine ((h.cuts hfollows).append <| (cuts_punctuation '.' .dot (by decide)).append <|
      cuts_name hword hrest.head).mono ?_
    rintro ts ⟨us, _, rfl, hd, _, _, rfl, ⟨dot, -, rfl⟩, name, rfl, rfl⟩
    have hd := hd.applied (e := .member p target name.val.text) (.member dot name .nil) fun t ht => by
      rw [Postfixes.tree, Postfixes.tree, Expr.unplaced, Expr.unplaced, ht]
    rwa [Postfixes.tokens, Postfixes.tokens] at hd

theorem ReadsBack.index {target inner : Expr} (h : ReadsBack target) (hinner : ReadsBack inner) :
    ReadsBack (.index p target inner) := by
  have hsource : (Expr.index p target inner).source.toList = target.source.toList ++
      (['['] ++ (inner.source.toList ++ [']'])) := by
    simp
  constructor
  · rw [hsource]
    exact h.head_append _
  · intro rest _
    rw [hsource]
    refine ((h.cuts (follows_cons rfl _)).append <| (cuts_punctuation '[' .leftBracket (by decide)).append <|
      (hinner.cuts (follows_cons rfl _)).append <| cuts_punctuation ']' .rightBracket (by decide)).mono ?_
    rintro ts ⟨us, _, rfl, hd, _, _, rfl, ⟨opening, -, rfl⟩, vs, _, rfl, hi, closing, -, rfl⟩
    obtain ⟨di, rfl, hdi⟩ := hi.expression .or
    have hd := hd.applied (e := .index p target inner) (.index opening di closing .nil) fun t ht => by
      rw [Postfixes.tree, Postfixes.tree, Expr.unplaced, Expr.unplaced, ht, hdi]
    simpa [Postfixes.tokens] using hd

/-! ### Lists and the arguments of calls -/

theorem toList_comma_join (text text' : String) (more : List String) :
    (", ".intercalate (text :: text' :: more)).toList =
      text.toList ++ ([','] ++ (' ' :: (", ".intercalate (text' :: more)).toList)) := by
  rw [String.intercalate_cons_cons]
  simp

/-- Items are read back with the bracket that closes them. -/
theorem cuts_items : ∀ items : List Expr, (∀ e ∈ items, ReadsBack e) →
    Cuts ((", ".intercalate (Expr.sources items)).toList ++ [']']) rest fun ts =>
      ∃ d : Items, ts = d.tokens ∧ Expr.unplacedOf d.trees = Expr.unplacedOf items
  | [], _ => by
    rw [Expr.sources, String.intercalate_nil]
    refine (cuts_punctuation ']' .rightBracket (by decide)).mono ?_
    rintro ts ⟨closing, -, rfl⟩
    exact ⟨.close closing, by rw [Items.tokens], by rw [Items.trees]⟩
  | [e], h => by
    rw [Expr.sources, Expr.sources, String.intercalate_singleton]
    refine (((h e (List.mem_singleton_self e)).cuts (follows_cons rfl _)).append <|
      cuts_punctuation ']' .rightBracket (by decide)).mono ?_
    rintro ts ⟨us, _, rfl, he, closing, -, rfl⟩
    obtain ⟨d, rfl, hd⟩ := he.expression .or
    refine ⟨.item d (.close closing), by rw [Items.tokens, MoreItems.tokens], ?_⟩
    simp only [Items.trees, MoreItems.trees, Expr.unplacedOf, hd]
  | e :: e' :: es, h => by
    obtain ⟨he, hmore⟩ := List.forall_mem_cons.mp h
    have ih := cuts_items (e' :: es) hmore
    rw [Expr.sources] at ih
    rw [Expr.sources, Expr.sources, toList_comma_join, List.append_assoc, List.append_assoc]
    refine ((he.cuts (follows_cons rfl _)).append <| (cuts_punctuation ',' .comma (by decide)).append <|
      ih.gap rfl).mono ?_
    rintro ts ⟨us, _, rfl, he, _, _, rfl, ⟨comma, -, rfl⟩, items, rfl, hitems⟩
    obtain ⟨d, rfl, hd⟩ := he.expression .or
    refine ⟨.item d (.comma comma items), by rw [Items.tokens, MoreItems.tokens]; rfl, ?_⟩
    rw [Items.trees, MoreItems.trees, Expr.unplacedOf, Expr.unplacedOf, hd, hitems]

theorem ReadsBack.list {items : List Expr} (h : ∀ e ∈ items, ReadsBack e) : ReadsBack (.list p items) := by
  have hsource : (Expr.list p items).source.toList =
      ['['] ++ ((", ".intercalate (Expr.sources items)).toList ++ [']']) := by
    simp
  constructor
  · rw [hsource]
    exact ⟨'[', _, rfl, by decide⟩
  · intro rest _
    rw [hsource]
    refine ((cuts_punctuation '[' .leftBracket (by decide)).append <| cuts_items items h).mono ?_
    rintro ts ⟨_, _, rfl, ⟨opening, -, rfl⟩, d, rfl, htrees⟩
    have hd := derives_primary (e := .list p items) (.list opening d) (by
      rw [Primary.tree, Expr.unplaced, Expr.unplaced, htrees])
    rwa [Primary.tokens] at hd

/-- The tokens of an argument that stands after arguments with the names given. -/
def DerivesArgument (seen : List String) (a : CallArgument) (ts : List Token) : Prop :=
  ∀ more : MoreArguments (a.name.toList ++ seen), ∃ d : Arguments seen, d.tokens = ts ++ more.tokens ∧
    CallArgument.unplacedOf d.trees = a.unplaced :: CallArgument.unplacedOf more.trees

theorem cuts_argument {seen : List String} {a : CallArgument} (h : ReadsBack a.value)
    (hname : ∀ name ∈ a.name, IsName name ∧ name ∉ seen) {c : Char} (hc : isNumberPart c = false) :
    Cuts a.source.toList (c :: rest) (DerivesArgument seen a) := by
  obtain ⟨_ | name, value⟩ := a <;> change ReadsBack value at h
  · rw [CallArgument.source]
    refine (h.cuts (follows_cons hc _)).mono ?_
    intro ts hvalue more
    change MoreArguments seen at more
    obtain ⟨d, rfl, hd⟩ := hvalue.expression .or
    refine ⟨.positional d more, by rw [Arguments.tokens]; rfl, ?_⟩
    rw [Arguments.trees, CallArgument.unplacedOf, CallArgument.unplaced, CallArgument.unplaced, hd]
    rfl
  · obtain ⟨hword, hseen⟩ := hname name rfl
    obtain ⟨first, cs, hhead, hfirst⟩ := h.head
    have hsign : Cuts ['='] (value.source.toList ++ c :: rest) (Single .assign (.ofList ['='])) := by
      rw [hhead]
      exact cuts_sign '=' .assign (by decide) hfirst
    have hsource : (CallArgument.mk (some name) value).source.toList =
        name.toList ++ (['='] ++ value.source.toList) := by
      simp [CallArgument.source]
    rw [hsource]
    refine ((cuts_name hword (by rintro _ ⟨⟩; rfl)).append <| hsign.append <| h.cuts (follows_cons hc _)).mono ?_
    rintro ts ⟨_, _, rfl, ⟨word, rfl, rfl⟩, _, us, rfl, ⟨sign, -, rfl⟩, hvalue⟩ more
    change MoreArguments (word.val.text :: seen) at more
    obtain ⟨d, rfl, hd⟩ := hvalue.expression .or
    refine ⟨.named word sign hseen d more, by rw [Arguments.tokens]; rfl, ?_⟩
    rw [Arguments.trees, CallArgument.unplacedOf, CallArgument.unplaced, CallArgument.unplaced, hd]
    rfl

/-- Arguments are read back with the parenthesis that closes them. -/
theorem cuts_arguments : ∀ (seen : List String) (arguments : List CallArgument),
    (∀ a ∈ arguments, ReadsBack a.value) → ProperlyNamed seen arguments →
    Cuts ((", ".intercalate (CallArgument.sources arguments)).toList ++ [')']) rest fun ts =>
      ∃ d : Arguments seen, ts = d.tokens ∧ CallArgument.unplacedOf d.trees = CallArgument.unplacedOf arguments
  | seen, [], _, _ => by
    rw [CallArgument.sources, String.intercalate_nil]
    refine (cuts_punctuation ')' .rightParen (by decide)).mono ?_
    rintro ts ⟨closing, -, rfl⟩
    exact ⟨.close closing, by rw [Arguments.tokens], by rw [Arguments.trees]⟩
  | seen, [a], h, hnames => by
    rw [CallArgument.sources, CallArgument.sources, String.intercalate_singleton]
    refine ((cuts_argument (h a (List.mem_singleton_self a)) hnames.1 rfl).append <|
      cuts_punctuation ')' .rightParen (by decide)).mono ?_
    rintro ts ⟨us, _, rfl, ha, closing, -, rfl⟩
    obtain ⟨d, htokens, hd⟩ := ha (.close closing)
    refine ⟨d, by rw [htokens, MoreArguments.tokens], ?_⟩
    simp only [hd, MoreArguments.trees, CallArgument.unplacedOf]
  | seen, a :: a' :: as, h, hnames => by
    obtain ⟨ha, hmore⟩ := List.forall_mem_cons.mp h
    have ih := cuts_arguments (a.name.toList ++ seen) (a' :: as) hmore hnames.2
    rw [CallArgument.sources] at ih
    rw [CallArgument.sources, CallArgument.sources, toList_comma_join, List.append_assoc, List.append_assoc]
    refine ((cuts_argument ha hnames.1 rfl).append <| (cuts_punctuation ',' .comma (by decide)).append <|
      ih.gap rfl).mono ?_
    rintro ts ⟨us, _, rfl, ha, _, _, rfl, ⟨comma, -, rfl⟩, arguments, rfl, harguments⟩
    obtain ⟨d, htokens, hd⟩ := ha (.comma comma arguments)
    refine ⟨d, by rw [htokens, MoreArguments.tokens]; rfl, ?_⟩
    simp only [hd, MoreArguments.trees, harguments, CallArgument.unplacedOf]

theorem ReadsBack.call {callee : Expr} {arguments : List CallArgument} (h : ReadsBack callee)
    (harguments : ∀ a ∈ arguments, ReadsBack a.value) (hnames : ProperlyNamed [] arguments) :
    ReadsBack (.call p callee arguments) := by
  have hsource : (Expr.call p callee arguments).source.toList = callee.source.toList ++
      (['('] ++ ((", ".intercalate (CallArgument.sources arguments)).toList ++ [')'])) := by
    simp
  constructor
  · rw [hsource]
    exact h.head_append _
  · intro rest _
    rw [hsource]
    refine ((h.cuts (follows_cons rfl _)).append <| (cuts_punctuation '(' .leftParen (by decide)).append <|
      cuts_arguments [] arguments harguments hnames).mono ?_
    rintro ts ⟨us, _, rfl, hd, _, _, rfl, ⟨opening, -, rfl⟩, d, rfl, htrees⟩
    have hd := hd.applied (e := .call p callee arguments) (.call opening d .nil) fun t ht => by
      rw [Postfixes.tree, Postfixes.tree, Expr.unplaced, Expr.unplaced, ht, htrees]
    simpa [Postfixes.tokens] using hd

/-! ### All expressions -/

mutual

theorem Expr.readsBack : ∀ e : Expr, (∀ s ∈ e.subtrees, s.Printable) → ReadsBack e
  | .literal p (.boolean b), _ => readsBack_boolean b
  | .literal p (.number n), h => by
    obtain ⟨hchars, hvalue⟩ := h _ (Expr.mem_subtrees_self _)
    exact readsBack_number hchars hvalue
  | .literal p (.string s), _ => readsBack_string s
  | .list p items, h => by
    rw [Expr.subtrees] at h
    exact .list (Expr.readsBackOf items (List.forall_mem_cons.mp h).2)
  | .name p word, h => readsBack_name (h _ (Expr.mem_subtrees_self _))
  | .member p target word, h => by
    rw [Expr.subtrees] at h
    obtain ⟨⟨hword, hnumber⟩, htarget⟩ := List.forall_mem_cons.mp h
    exact (target.readsBack htarget).member hword hnumber
  | .index p target inner, h => by
    simp only [Expr.subtrees, List.forall_mem_cons, List.forall_mem_append] at h
    exact (target.readsBack h.2.1).index (inner.readsBack h.2.2)
  | .binary p op left right, h => by
    simp only [Expr.subtrees, List.forall_mem_cons, List.forall_mem_append] at h
    exact (left.readsBack h.2.1).binary (right.readsBack h.2.2)
  | .unary p op operand, h => by
    rw [Expr.subtrees] at h
    exact (operand.readsBack (List.forall_mem_cons.mp h).2).unary
  | .call p callee arguments, h => by
    simp only [Expr.subtrees, List.forall_mem_cons, List.forall_mem_append] at h
    exact (callee.readsBack h.2.1).call (CallArgument.readsBackOf arguments h.2.2) h.1

theorem Expr.readsBackOf : ∀ items : List Expr, (∀ s ∈ Expr.subtreesOf items, s.Printable) →
    ∀ e ∈ items, ReadsBack e
  | [], _ => List.forall_mem_nil _
  | e :: es, h => by
    simp only [Expr.subtreesOf, List.forall_mem_append] at h
    exact List.forall_mem_cons.mpr ⟨e.readsBack h.1, Expr.readsBackOf es h.2⟩

theorem CallArgument.readsBackOf : ∀ arguments : List CallArgument,
    (∀ s ∈ CallArgument.subtreesOf arguments, s.Printable) → ∀ a ∈ arguments, ReadsBack a.value
  | [], _ => List.forall_mem_nil _
  | ⟨name, value⟩ :: as, h => by
    simp only [CallArgument.subtreesOf, CallArgument.subtrees, List.forall_mem_append] at h
    exact List.forall_mem_cons.mpr ⟨value.readsBack h.1, CallArgument.readsBackOf as h.2⟩

end

end TemplatedSql
