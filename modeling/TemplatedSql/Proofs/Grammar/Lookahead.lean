import Mathlib.Data.List.Basic
import TemplatedSql.Proofs.Grammar.Derivation

/-! # What the next tokens decide

The parser looks at one token, and at two for `not in` and for named arguments. What it finds there is what a
derivation says: how an expression starts, where it cannot go on, and which operator joins it to the next one. -/

namespace TemplatedSql.Grammar

open TemplatedSql.Parser (Level operator? argumentName?)

variable {l m : Level} {ts rest : List Token}

/-! ### Operators -/

theorem operator?_iff {k : TokenKind} {op : BinaryOp} : l.operator? k = some op ↔ (k, l, op) ∈ operators := by
  constructor
  · intro h
    unfold Level.operator? at h
    split at h <;> cases h <;> decide
  · intro h
    simp only [operators, List.mem_cons, Prod.mk.injEq, List.not_mem_nil, or_false] at h
    rcases h with h | h | h | h | h | h | h | h | h | h | h | h | h | h <;> obtain ⟨rfl, rfl, rfl⟩ := h <;> rfl

/-- The operator that the parser finds is one of the grammar. -/
theorem exists_operator {p : Parser.Parsed (BinaryOp × Position) ts.length} (h : operator? l ts = some p) :
    ∃ o : Operator l, ts = o.tokens ++ p.rest ∧ p.value = (o.op, o.position) := by
  unfold operator? at h
  split at h
  · cases h
  · rename_i t us
    split at h
    · rename_i op hop
      cases h
      exact ⟨.word t op (operator?_iff.mp hop), rfl, rfl⟩
    · split at h
      · rename_i u vs
        split at h
        · rename_i hnot
          cases h
          exact ⟨.notIn ⟨t, hnot.2.1⟩ ⟨u, hnot.2.2⟩ hnot.1, rfl, rfl⟩
        · cases h
      · cases h

/-- The parser finds the operators of the grammar. -/
theorem operator?_append (o : Operator l) (ts : List Token) :
    ∃ h, operator? l (o.tokens ++ ts) = some ⟨(o.op, o.position), ts, h⟩ := by
  cases o with
  | word t op h =>
    simp only [Operator.tokens, List.cons_append, List.nil_append, operator?, operator?_iff.mpr h]
    exact ⟨_, rfl⟩
  | notIn sign last h =>
    obtain ⟨t, ht⟩ := sign
    obtain ⟨u, hu⟩ := last
    cases h
    simp only [Operator.tokens, List.cons_append, List.nil_append, operator?, ht, hu]
    exact ⟨_, rfl⟩

/-- An operator of one level is none of a tighter level. -/
theorem operator?_append_of_lt (o : Operator l) (h : m.rank < l.rank) (ts : List Token) :
    operator? m (o.tokens ++ ts) = none := by
  cases o with
  | word t op hop =>
    have hnone : m.operator? t.kind = none ∧ t.kind ≠ .notWord := by
      simp only [operators, List.mem_cons, Prod.mk.injEq, List.not_mem_nil, or_false] at hop
      rcases hop with hop | hop | hop | hop | hop | hop | hop | hop | hop | hop | hop | hop | hop | hop <;>
        obtain ⟨hk, rfl, -⟩ := hop <;> rw [hk] <;> revert h <;> cases m <;> decide
    simp only [Operator.tokens, List.cons_append, List.nil_append, operator?, hnone.1]
    cases ts with
    | nil => rfl
    | cons u us => exact if_neg fun hnot => hnone.2 hnot.2.1
  | notIn sign last hl =>
    obtain ⟨t, ht⟩ := sign
    have hne : m ≠ .comparison := by
      rintro rfl
      exact absurd h (by rw [hl]; decide)
    have hnone : m.operator? t.kind = none := by
      rw [ht]
      cases m <;> rfl
    simp only [Operator.tokens, List.cons_append, List.nil_append, operator?, hnone]
    exact if_neg fun hnot => hne hnot.1

/-- What an operator starts with does not go on with its left operand, and does not name an argument. -/
theorem Operator.head_kind (o : Operator l) : ∃ t ts, o.tokens = t :: ts ∧
    t.kind ∉ [.assign, .leftParen, .leftBracket, .dot] := by
  cases o with
  | word t op h =>
    refine ⟨t, [], rfl, ?_⟩
    have hall : ∀ entry ∈ operators, entry.1 ∉ [.assign, .leftParen, .leftBracket, .dot] := by decide
    exact hall _ h
  | notIn sign last h => exact ⟨sign.val, [last.val], rfl, by rw [sign.property]; decide⟩

/-! ### Where an expression ends -/

/-- The tokens do not go on with an expression of a level. -/
structure Stops (l : Level) (ts : List Token) : Prop where
  operator : ∀ m : Level, m.rank ≤ l.rank → operator? m ts = none
  postfixes : ∀ t ∈ ts.head?, t.kind ∉ [.leftParen, .leftBracket, .dot]

theorem Stops.next (h : Stops l ts) : Stops l.next ts :=
  ⟨fun m hm => h.operator m (Nat.le_trans hm (by cases l <;> decide)), h.postfixes⟩

/-- What closes an expression stops every level. -/
theorem stops_cons {t : Token} (h : t.kind ∈ [.rightParen, .rightBracket, .comma, .exprClose, .stmtClose]) :
    Stops l (t :: ts) := by
  have hnone : ∀ m : Level, m.operator? t.kind = none ∧ t.kind ≠ .notWord := by
    intro m
    simp only [List.mem_cons, List.not_mem_nil, or_false] at h
    rcases h with h | h | h | h | h <;> rw [h] <;> cases m <;> decide
  constructor
  · intro m _
    simp only [operator?, (hnone m).1]
    cases ts with
    | nil => rfl
    | cons u us => exact if_neg fun hnot => (hnone m).2 hnot.2.1
  · intro u hu
    cases hu
    revert h
    generalize t.kind = k
    cases k <;> decide

theorem stops_word {k : TokenKind} (t : Word k) (h : k ∈ [.rightParen, .rightBracket, .comma, .exprClose, .stmtClose]) :
    Stops l (t.val :: ts) :=
  stops_cons (by rw [t.property]; exact h)

theorem stops_operator (hl : l ≠ .operand) (o : Operator l) (ts : List Token) : Stops l.next (o.tokens ++ ts) := by
  refine ⟨fun m hm => operator?_append_of_lt o (Nat.lt_of_le_of_lt hm (Level.rank_next_lt hl)) ts, ?_⟩
  obtain ⟨t, us, ho, ht⟩ := o.head_kind
  rw [ho]
  intro u hu
  cases hu
  exact fun hmem => ht (List.mem_cons_of_mem _ hmem)

/-! ### How an expression starts -/

/-- Whether an expression of a level can start with a token of the kind. -/
def starts (l : Level) (k : TokenKind) : Bool :=
  k ∈ [.number, .string, .trueWord, .falseWord, .identifier, .leftParen, .leftBracket] ||
    (Level.sign.rank ≤ l.rank && k ∈ [.minus, .plus]) || (Level.not.rank ≤ l.rank && k = .notWord)

theorem starts_of_next {k : TokenKind} (h : starts l.next k = true) : starts l k = true := by
  revert h
  cases l <;> cases k <;> decide

/-- A sign of a level is not read where an expression of the next level starts. -/
theorem sign?_of_starts_next (hl : l ≠ .operand) {k : TokenKind} (h : starts l.next k = true) : l.sign? k = none := by
  revert h hl
  cases l <;> cases k <;> decide

theorem Primary.head_kind (d : Primary) : ∃ t ts, d.tokens = t :: ts ∧ starts .operand t.kind = true := by
  cases d with
  | number numeral => exact ⟨_, _, rfl, by rw [numeral.token.property]; rfl⟩
  | paren opening inner closing => exact ⟨_, _, rfl, by rw [opening.property]; rfl⟩
  | list opening items => exact ⟨_, _, rfl, by rw [opening.property]; rfl⟩
  | string t | trueWord t | falseWord t | name t => exact ⟨_, _, rfl, by rw [t.property]; rfl⟩

theorem Expression.head_kind : ∀ {l : Level} (d : Expression l), ∃ t ts, d.tokens = t :: ts ∧ starts l t.kind = true
  | _, .not sign operand => ⟨_, _, rfl, by rw [sign.property]; rfl⟩
  | _, .minus sign operand => ⟨_, _, rfl, by rw [sign.property]; rfl⟩
  | _, .plus sign operand => ⟨_, _, rfl, by rw [sign.property]; rfl⟩
  | _, .chain _ first more => by
    obtain ⟨t, ts, hfirst, ht⟩ := first.head_kind
    exact ⟨t, ts ++ more.tokens, by rw [Expression.tokens, hfirst]; rfl, starts_of_next ht⟩
  | _, .applied target postfixes => by
    obtain ⟨t, ts, htarget, ht⟩ := target.head_kind
    exact ⟨t, ts ++ postfixes.tokens, by rw [Expression.tokens, htarget]; rfl, ht⟩

theorem MoreArguments.head_kind {seen : List String} (d : MoreArguments seen) : ∃ t ts, d.tokens = t :: ts ∧
    t.kind ∈ [.rightParen, .comma] := by
  cases d with
  | close closing => exact ⟨_, _, rfl, by rw [closing.property]; decide⟩
  | comma comma arguments => exact ⟨_, _, rfl, by rw [comma.property]; decide⟩

theorem MoreItems.head_kind (d : MoreItems) : ∃ t ts, d.tokens = t :: ts ∧ t.kind ∈ [.rightBracket, .comma] := by
  cases d with
  | close closing => exact ⟨_, _, rfl, by rw [closing.property]; decide⟩
  | comma comma items => exact ⟨_, _, rfl, by rw [comma.property]; decide⟩

theorem MoreArguments.stops {l : Level} {seen : List String} (d : MoreArguments seen) (ts : List Token) :
    Stops l (d.tokens ++ ts) := by
  obtain ⟨t, us, hd, ht⟩ := d.head_kind
  rw [hd]
  refine stops_cons ?_
  revert ht
  generalize t.kind = k
  cases k <;> decide

theorem MoreItems.stops {l : Level} (d : MoreItems) (ts : List Token) : Stops l (d.tokens ++ ts) := by
  obtain ⟨t, us, hd, ht⟩ := d.head_kind
  rw [hd]
  refine stops_cons ?_
  revert ht
  generalize t.kind = k
  cases k <;> decide

/-- Whatever comes after a part of a chain, the operand before it has ended. -/
theorem Chain.stops {l : Level} (hl : l ≠ .operand) (d : Chain l) {ts : List Token} (h : Stops l ts) :
    Stops l.next (d.tokens ++ ts) := by
  cases d with
  | nil => exact h.next
  | cons operator right more =>
    rw [Chain.tokens, List.append_assoc]
    exact stops_operator hl operator _

theorem ne_of_starts {l : Level} {k : TokenKind} (h : starts l k = true) :
    k ≠ .rightParen ∧ k ≠ .rightBracket := by
  constructor <;>
  · rintro rfl
    revert h
    cases l <;> decide

/-! ### Names of arguments -/

theorem argumentName?_eq_some {p : Parser.Parsed Token ts.length} (h : argumentName? ts = some p) :
    ∃ sign, ts = p.value :: sign :: p.rest ∧ p.value.kind = .identifier ∧ sign.kind = .assign := by
  unfold argumentName? at h
  split at h
  · rename_i t u us
    split at h
    · rename_i hname
      cases h
      exact ⟨u, rfl, hname⟩
    · cases h
  · cases h

theorem argumentName?_of_kinds {t u : Token} (ht : t.kind = .identifier) (hu : u.kind = .assign) (ts : List Token) :
    ∃ h, argumentName? (t :: u :: ts) = some ⟨t, ts, h⟩ :=
  ⟨_, if_pos ⟨ht, hu⟩⟩

theorem Chain.head_kind {l : Level} (d : Chain l) (h : ∀ t ∈ ts.head?, t.kind ≠ .assign) :
    ∀ t ∈ (d.tokens ++ ts).head?, t.kind ≠ .assign := by
  cases d with
  | nil => exact h
  | cons operator right more =>
    obtain ⟨t, us, ho, ht⟩ := operator.head_kind
    intro u hu
    rw [Chain.tokens, ho] at hu
    cases hu
    rintro hk
    rw [hk] at ht
    exact ht (by decide)

theorem Postfixes.head_kind (d : Postfixes) (h : ∀ t ∈ ts.head?, t.kind ≠ .assign) :
    ∀ t ∈ (d.tokens ++ ts).head?, t.kind ≠ .assign := by
  cases d with
  | nil => exact h
  | call opening _ _ | index opening _ _ _ | member opening _ _ =>
    intro u hu
    cases hu
    rw [opening.property]
    decide

theorem argumentName?_eq_none {t : Token} (h : t.kind ≠ .identifier) (ts : List Token) :
    argumentName? (t :: ts) = none := by
  cases ts with
  | nil => rfl
  | cons u us => exact if_neg fun hname => h hname.1

theorem argumentName?_eq_none_of_next {t : Token} (h : ∀ u ∈ ts.head?, u.kind ≠ .assign) :
    argumentName? (t :: ts) = none := by
  cases ts with
  | nil => rfl
  | cons u us => exact if_neg fun hname => h u rfl hname.2

/-- An expression does not read like a name with a sign, wherever no sign follows it. -/
theorem argumentName?_append : ∀ {l : Level} (d : Expression l) {ts : List Token},
    (∀ t ∈ ts.head?, t.kind ≠ .assign) → argumentName? (d.tokens ++ ts) = none
  | _, .not sign operand, _, _ => argumentName?_eq_none (by rw [sign.property]; decide) _
  | _, .minus sign operand, _, _ => argumentName?_eq_none (by rw [sign.property]; decide) _
  | _, .plus sign operand, _, _ => argumentName?_eq_none (by rw [sign.property]; decide) _
  | _, .chain _ first more, _, h => by
    rw [Expression.tokens, List.append_assoc]
    exact argumentName?_append first (more.head_kind h)
  | _, .applied target postfixes, _, h => by
    rw [Expression.tokens, List.append_assoc]
    have hnext := postfixes.head_kind h
    cases target with
    | number numeral => exact argumentName?_eq_none_of_next hnext
    | string t | trueWord t | falseWord t | name t => exact argumentName?_eq_none_of_next hnext
    | paren opening inner closing => exact argumentName?_eq_none (by rw [opening.property]; decide) _
    | list opening items => exact argumentName?_eq_none (by rw [opening.property]; decide) _

/-- A value in front of the rest of an argument list does not read like a name with a sign. -/
theorem argumentName?_positional {seen : List String} (value : Expression .or) (more : MoreArguments seen)
    (ts : List Token) : argumentName? (value.tokens ++ (more.tokens ++ ts)) = none := by
  obtain ⟨t, us, hmore, ht⟩ := more.head_kind
  refine argumentName?_append value fun u hu => ?_
  rw [hmore] at hu
  cases hu
  rintro hk
  rw [hk] at ht
  exact absurd ht (by decide)

/-! ### Bodies -/

/-- The words that end a body inside a statement. None of them starts a statement. -/
def terminators : List TokenKind :=
  [.elifWord, .elseWord, .endifWord, .endforWord, .endmacroWord]

/-- Nothing follows, or a tag that ends a body. -/
def Ends (ts : List Token) : Prop :=
  ∀ t ∈ ts.head?, t.kind = .stmtOpen ∧ ∃ last ∈ ts.tail.head?, last.kind ∈ terminators

theorem ends_nil : Ends [] := by
  intro t ht
  cases ht

theorem ends_tag {opening last : Token} (hopening : opening.kind = .stmtOpen) (hlast : last.kind ∈ terminators) :
    Ends (opening :: last :: ts) := by
  intro t ht
  cases ht
  exact ⟨hopening, last, rfl, hlast⟩

theorem WordTag.ends {kind : TokenKind} (tag : WordTag kind) (hkind : kind ∈ terminators) :
    Ends (tag.tokens ++ ts) :=
  ends_tag tag.opening.property (by rw [tag.word.property]; exact hkind)

theorem Alternative.ends (d : Alternative) : Ends (d.tokens ++ ts) := by
  cases d with
  | nothing last => exact last.ends (by decide)
  | otherwise tag body last =>
    rw [Alternative.tokens, List.append_assoc]
    exact tag.ends (by decide)
  | elseIf opening word condition closing body rest =>
    exact ends_tag opening.property (by rw [word.property]; decide)

/-- No statement starts with a word that ends a body. -/
theorem Statement.head_kind {d : Statement} {keyword : Token} {us : List Token}
    (h : d.tokens ++ ts = keyword :: us) : keyword.kind ∉ terminators := by
  cases d with
  | branch word _ _ _ _ | loop word _ _ _ _ _ _ | macroDef word _ _ _ _ _ _ | assign word _ _ _ _ =>
    rw [← (List.cons.inj h).1, word.property]
    decide

theorem place_append {stop : Position} (nodes : Nodes) (next : Token) (ts : List Token) :
    Parser.place stop (nodes.tokens ++ next :: ts) = (nodes.tokens.head?.getD next).start := by
  cases nodes.tokens <;> rfl

end TemplatedSql.Grammar
