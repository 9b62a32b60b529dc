import TemplatedSql.Proofs.Grammar.Lookahead

/-! # Tokens have one derivation

Two derivations of one list of tokens are equal. What the recursion carries is that two derived parts at the front
of a list are the same part, wherever what follows them does not go on with them. -/

namespace TemplatedSql.Grammar

open TemplatedSql.Parser (Level operator? argumentName?)

variable {l : Level} {ts ts' : List Token}

/-- A token in front decides the kind of what is derived. -/
theorem kind_eq {k k' : TokenKind} {t : Word k} {t' : Word k'} (h : t.val :: ts = t'.val :: ts') : k = k' :=
  t.property.symm.trans ((congrArg Token.kind (List.cons.inj h).1).trans t'.property)

theorem word_eq {k : TokenKind} {t t' : Word k} (h : t.val :: ts = t'.val :: ts') : t = t' ∧ ts = ts' :=
  ⟨Subtype.ext (List.cons.inj h).1, (List.cons.inj h).2⟩

theorem Numeral.eq_of_tokens {n n' : Numeral} (h : n.token.val :: ts = n'.token.val :: ts') : n = n' ∧ ts = ts' := by
  obtain ⟨token, value, hvalue⟩ := n
  obtain ⟨token', value', hvalue'⟩ := n'
  obtain ⟨rfl, rfl⟩ := word_eq h
  cases hvalue.symm.trans hvalue'
  exact ⟨rfl, rfl⟩

theorem ne_notWord {entry : TokenKind × Level × BinaryOp} (h : entry ∈ operators) : entry.1 ≠ .notWord := by
  have hall : ∀ entry ∈ operators, entry.1 ≠ .notWord := by decide
  exact hall entry h

theorem Operator.unique {o o' : Operator l} (h : o.tokens ++ ts = o'.tokens ++ ts') : o = o' ∧ ts = ts' := by
  cases o with
  | word t op hop =>
    cases o' with
    | word t' op' hop' =>
      cases h
      cases (operator?_iff.mpr hop).symm.trans (operator?_iff.mpr hop')
      exact ⟨rfl, rfl⟩
    | notIn sign last hl =>
      cases h
      exact absurd sign.property (ne_notWord hop)
  | notIn sign last hl =>
    cases o' with
    | word t op hop =>
      cases h
      exact absurd sign.property (ne_notWord hop)
    | notIn sign' last' hl' =>
      obtain ⟨rfl, hlast⟩ := word_eq h
      obtain ⟨rfl, rfl⟩ := word_eq hlast
      exact ⟨rfl, rfl⟩

/-! ### Where nothing goes on -/

theorem Chain.eq_nil {d : Chain l} (hs : Stops l ts') (h : d.tokens ++ ts = ts') : d = .nil := by
  cases d with
  | nil => rfl
  | cons operator right more =>
    rw [Chain.tokens, List.append_assoc] at h
    obtain ⟨_, hoperator⟩ := operator?_append operator (right.tokens ++ more.tokens ++ ts)
    subst h
    cases (hs.operator l (Nat.le_refl _)).symm.trans hoperator

theorem Postfixes.eq_nil {d : Postfixes} (hs : Stops l ts') (h : d.tokens ++ ts = ts') : d = .nil := by
  subst h
  cases d with
  | nil => rfl
  | call opening _ _ | index opening _ _ _ | member opening _ _ =>
    refine absurd ?_ (hs.postfixes opening.val rfl)
    rw [opening.property]
    decide

theorem Nodes.eq_nil {d : Nodes} (hs : Ends ts') (h : d.tokens ++ ts = ts') : d = .nil := by
  subst h
  cases d with
  | nil => rfl
  | text t _ | blank t _ | comment t _ | output t _ _ _ =>
    have ht := (hs t.val rfl).1
    rw [t.property] at ht
    cases ht
  | statement opening statement more =>
    obtain ⟨-, last, hlast, hmem⟩ := hs opening.val rfl
    rw [Nodes.tokens, List.cons_append, List.append_assoc, List.tail_cons] at hlast
    obtain ⟨us, hus⟩ := List.head?_eq_some_iff.mp hlast
    exact absurd hmem (Statement.head_kind hus)

/-- An operation does not start with a sign of its level. -/
theorem sign?_of_chain {k : TokenKind} {t : Word k} {us : List Token} {hl : l ≠ .operand} {first : Expression l.next}
    {more : Chain l} (h : t.val :: us = (Expression.chain hl first more).tokens ++ ts) : l.sign? k = none := by
  obtain ⟨u, vs, hfirst, hu⟩ := first.head_kind
  rw [Expression.tokens, hfirst] at h
  rw [← t.property, (List.cons.inj h).1]
  exact sign?_of_starts_next hl hu

theorem starts_of_tokens {k : TokenKind} {t : Word k} {us : List Token} {d : Expression l}
    (h : t.val :: us = d.tokens ++ ts) : starts l k = true := by
  obtain ⟨u, vs, hd, hu⟩ := d.head_kind
  rw [hd] at h
  rw [← t.property, (List.cons.inj h).1]
  exact hu

/-- An argument without a name does not read like one with a name. -/
theorem not_named {seen : List String} {value : Expression .or} {more : MoreArguments seen} {name : Word .identifier}
    {sign : Word .assign} {us : List Token} (h : value.tokens ++ (more.tokens ++ ts) = name.val :: sign.val :: us) :
    False := by
  obtain ⟨_, hname⟩ := argumentName?_of_kinds name.property sign.property us
  have hnone := argumentName?_positional value more ts
  rw [h] at hnone
  cases hnone.symm.trans hname

/-! ### Expressions -/

mutual

theorem Expression.unique : ∀ {l : Level} (d : Expression l) {d' : Expression l} {ts ts' : List Token},
    Stops l ts → Stops l ts' → d.tokens ++ ts = d'.tokens ++ ts' → d = d' ∧ ts = ts'
  | _, .not sign operand, d', ts, ts', hs, hs', h => by
    cases d' with
    | not sign' operand' =>
      obtain ⟨rfl, hoperand⟩ := word_eq h
      obtain ⟨rfl, rfl⟩ := operand.unique hs hs' hoperand
      exact ⟨rfl, rfl⟩
    | chain hl first more => nomatch sign?_of_chain h
  | _, .minus sign operand, d', ts, ts', hs, hs', h => by
    cases d' with
    | minus sign' operand' =>
      obtain ⟨rfl, hoperand⟩ := word_eq h
      obtain ⟨rfl, rfl⟩ := operand.unique hs hs' hoperand
      exact ⟨rfl, rfl⟩
    | plus sign' operand' => nomatch kind_eq h
    | chain hl first more => nomatch sign?_of_chain h
  | _, .plus sign operand, d', ts, ts', hs, hs', h => by
    cases d' with
    | plus sign' operand' =>
      obtain ⟨rfl, hoperand⟩ := word_eq h
      obtain ⟨rfl, rfl⟩ := operand.unique hs hs' hoperand
      exact ⟨rfl, rfl⟩
    | minus sign' operand' => nomatch kind_eq h
    | chain hl first more => nomatch sign?_of_chain h
  | _, .chain hl first more, d', ts, ts', hs, hs', h => by
    cases d' with
    | chain hl' first' more' =>
      rw [Expression.tokens, Expression.tokens, List.append_assoc, List.append_assoc] at h
      obtain ⟨rfl, hmore⟩ := first.unique (more.stops hl hs) (more'.stops hl hs') h
      obtain ⟨rfl, rfl⟩ := more.unique hl hs hs' hmore
      exact ⟨rfl, rfl⟩
    | not | minus | plus => nomatch sign?_of_chain h.symm
    | applied => exact absurd rfl hl
  | _, .applied target postfixes, d', ts, ts', hs, hs', h => by
    cases d' with
    | applied target' postfixes' =>
      rw [Expression.tokens, Expression.tokens, List.append_assoc, List.append_assoc] at h
      obtain ⟨rfl, hpostfixes⟩ := target.unique h
      obtain ⟨rfl, rfl⟩ := postfixes.unique hs hs' hpostfixes
      exact ⟨rfl, rfl⟩
    | chain hl => exact absurd rfl hl
termination_by structural _ d => d

theorem Chain.unique : ∀ {l : Level} (d : Chain l) {d' : Chain l} {ts ts' : List Token},
    l ≠ .operand → Stops l ts → Stops l ts' → d.tokens ++ ts = d'.tokens ++ ts' → d = d' ∧ ts = ts'
  | _, .nil, d', ts, ts', hl, hs, hs', h => by
    obtain rfl := Chain.eq_nil hs h.symm
    exact ⟨rfl, h⟩
  | _, .cons operator right more, d', ts, ts', hl, hs, hs', h => by
    cases d' with
    | nil => nomatch Chain.eq_nil hs' h
    | cons operator' right' more' =>
      simp only [Chain.tokens, List.append_assoc] at h
      obtain ⟨rfl, hright⟩ := Operator.unique h
      obtain ⟨rfl, hmore⟩ := right.unique (more.stops hl hs) (more'.stops hl hs') hright
      obtain ⟨rfl, rfl⟩ := more.unique hl hs hs' hmore
      exact ⟨rfl, rfl⟩
termination_by structural _ d => d

theorem Primary.unique : ∀ (d : Primary) {d' : Primary} {ts ts' : List Token}, d.tokens ++ ts = d'.tokens ++ ts' →
    d = d' ∧ ts = ts'
  | .number numeral, d', ts, ts', h => by
    cases d' with
    | number numeral' =>
      obtain ⟨rfl, rfl⟩ := Numeral.eq_of_tokens h
      exact ⟨rfl, rfl⟩
    | _ => nomatch kind_eq h
  | .string t, d', ts, ts', h => by
    cases d' with
    | string t' =>
      obtain ⟨rfl, rfl⟩ := word_eq h
      exact ⟨rfl, rfl⟩
    | _ => nomatch kind_eq h
  | .trueWord t, d', ts, ts', h => by
    cases d' with
    | trueWord t' =>
      obtain ⟨rfl, rfl⟩ := word_eq h
      exact ⟨rfl, rfl⟩
    | _ => nomatch kind_eq h
  | .falseWord t, d', ts, ts', h => by
    cases d' with
    | falseWord t' =>
      obtain ⟨rfl, rfl⟩ := word_eq h
      exact ⟨rfl, rfl⟩
    | _ => nomatch kind_eq h
  | .name t, d', ts, ts', h => by
    cases d' with
    | name t' =>
      obtain ⟨rfl, rfl⟩ := word_eq h
      exact ⟨rfl, rfl⟩
    | _ => nomatch kind_eq h
  | .paren opening inner closing, d', ts, ts', h => by
    cases d' with
    | paren opening' inner' closing' =>
      obtain ⟨rfl, hinner⟩ := word_eq h
      obtain ⟨rfl, hclosing⟩ := inner.unique (stops_word closing (by decide)) (stops_word closing' (by decide))
        (by simpa only [List.append_eq, List.append_assoc, List.singleton_append] using hinner)
      obtain ⟨rfl, rfl⟩ := word_eq hclosing
      exact ⟨rfl, rfl⟩
    | _ => nomatch kind_eq h
  | .list opening items, d', ts, ts', h => by
    cases d' with
    | list opening' items' =>
      obtain ⟨rfl, hitems⟩ := word_eq h
      obtain ⟨rfl, rfl⟩ := items.unique hitems
      exact ⟨rfl, rfl⟩
    | _ => nomatch kind_eq h
termination_by structural d => d

theorem Postfixes.unique : ∀ (d : Postfixes) {d' : Postfixes} {ts ts' : List Token},
    Stops .operand ts → Stops .operand ts' → d.tokens ++ ts = d'.tokens ++ ts' → d = d' ∧ ts = ts'
  | .nil, d', ts, ts', hs, hs', h => by
    obtain rfl := Postfixes.eq_nil hs h.symm
    exact ⟨rfl, h⟩
  | .call opening arguments more, d', ts, ts', hs, hs', h => by
    cases d' with
    | nil => nomatch Postfixes.eq_nil hs' h
    | call opening' arguments' more' =>
      rw [Postfixes.tokens, Postfixes.tokens, List.cons_append, List.cons_append, List.append_assoc,
        List.append_assoc] at h
      obtain ⟨rfl, harguments⟩ := word_eq h
      obtain ⟨rfl, hmore⟩ := arguments.unique harguments
      obtain ⟨rfl, rfl⟩ := more.unique hs hs' hmore
      exact ⟨rfl, rfl⟩
    | _ => nomatch kind_eq h
  | .index opening index closing more, d', ts, ts', hs, hs', h => by
    cases d' with
    | nil => nomatch Postfixes.eq_nil hs' h
    | index opening' index' closing' more' =>
      rw [Postfixes.tokens, Postfixes.tokens, List.cons_append, List.cons_append, List.append_assoc,
        List.append_assoc] at h
      obtain ⟨rfl, hindex⟩ := word_eq h
      obtain ⟨rfl, hclosing⟩ := index.unique (stops_word closing (by decide)) (stops_word closing' (by decide)) hindex
      obtain ⟨rfl, hmore⟩ := word_eq hclosing
      obtain ⟨rfl, rfl⟩ := more.unique hs hs' hmore
      exact ⟨rfl, rfl⟩
    | _ => nomatch kind_eq h
  | .member dot name more, d', ts, ts', hs, hs', h => by
    cases d' with
    | nil => nomatch Postfixes.eq_nil hs' h
    | member dot' name' more' =>
      obtain ⟨rfl, hname⟩ := word_eq h
      obtain ⟨rfl, hmore⟩ := word_eq hname
      obtain ⟨rfl, rfl⟩ := more.unique hs hs' hmore
      exact ⟨rfl, rfl⟩
    | _ => nomatch kind_eq h
termination_by structural d => d

theorem Arguments.unique : ∀ {seen : List String} (d : Arguments seen) {d' : Arguments seen} {ts ts' : List Token},
    d.tokens ++ ts = d'.tokens ++ ts' → d = d' ∧ ts = ts'
  | _, .close closing, d', ts, ts', h => by
    cases d' with
    | close closing' =>
      obtain ⟨rfl, rfl⟩ := word_eq h
      exact ⟨rfl, rfl⟩
    | positional value more =>
      rw [Arguments.tokens, Arguments.tokens, List.append_assoc] at h
      exact absurd (starts_of_tokens h) (by decide)
    | named name sign hseen value more => nomatch kind_eq h
  | _, .positional value more, d', ts, ts', h => by
    rw [Arguments.tokens, List.append_assoc] at h
    cases d' with
    | close closing' => exact absurd (starts_of_tokens h.symm) (by decide)
    | positional value' more' =>
      rw [Arguments.tokens, List.append_assoc] at h
      obtain ⟨rfl, hmore⟩ := value.unique (more.stops ts) (more'.stops ts') h
      obtain ⟨rfl, rfl⟩ := more.unique hmore
      exact ⟨rfl, rfl⟩
    | named name sign hseen value' more' => exact (not_named h).elim
  | _, .named name sign hseen value more, d', ts, ts', h => by
    cases d' with
    | close closing' => nomatch kind_eq h
    | positional value' more' =>
      rw [Arguments.tokens, Arguments.tokens, List.append_assoc] at h
      exact (not_named h.symm).elim
    | named name' sign' hseen' value' more' =>
      rw [Arguments.tokens, Arguments.tokens, List.cons_append, List.cons_append, List.cons_append, List.cons_append,
        List.append_assoc, List.append_assoc] at h
      obtain ⟨rfl, hsign⟩ := word_eq h
      obtain ⟨rfl, hvalue⟩ := word_eq hsign
      obtain ⟨rfl, hmore⟩ := value.unique (more.stops ts) (more'.stops ts') hvalue
      obtain ⟨rfl, rfl⟩ := more.unique hmore
      exact ⟨rfl, rfl⟩
termination_by structural _ d => d

theorem MoreArguments.unique : ∀ {seen : List String} (d : MoreArguments seen) {d' : MoreArguments seen}
    {ts ts' : List Token}, d.tokens ++ ts = d'.tokens ++ ts' → d = d' ∧ ts = ts'
  | _, .close closing, d', ts, ts', h => by
    cases d' with
    | close closing' =>
      obtain ⟨rfl, rfl⟩ := word_eq h
      exact ⟨rfl, rfl⟩
    | comma comma arguments => nomatch kind_eq h
  | _, .comma comma arguments, d', ts, ts', h => by
    cases d' with
    | close closing' => nomatch kind_eq h
    | comma comma' arguments' =>
      obtain ⟨rfl, harguments⟩ := word_eq h
      obtain ⟨rfl, rfl⟩ := arguments.unique harguments
      exact ⟨rfl, rfl⟩
termination_by structural _ d => d

theorem Items.unique : ∀ (d : Items) {d' : Items} {ts ts' : List Token}, d.tokens ++ ts = d'.tokens ++ ts' →
    d = d' ∧ ts = ts'
  | .close closing, d', ts, ts', h => by
    cases d' with
    | close closing' =>
      obtain ⟨rfl, rfl⟩ := word_eq h
      exact ⟨rfl, rfl⟩
    | item value more =>
      rw [Items.tokens, Items.tokens, List.append_assoc] at h
      exact absurd (starts_of_tokens h) (by decide)
  | .item value more, d', ts, ts', h => by
    cases d' with
    | close closing' =>
      rw [Items.tokens, Items.tokens, List.append_assoc] at h
      exact absurd (starts_of_tokens h.symm) (by decide)
    | item value' more' =>
      rw [Items.tokens, Items.tokens, List.append_assoc, List.append_assoc] at h
      obtain ⟨rfl, hmore⟩ := value.unique (more.stops ts) (more'.stops ts') h
      obtain ⟨rfl, rfl⟩ := more.unique hmore
      exact ⟨rfl, rfl⟩
termination_by structural d => d

theorem MoreItems.unique : ∀ (d : MoreItems) {d' : MoreItems} {ts ts' : List Token}, d.tokens ++ ts = d'.tokens ++ ts' →
    d = d' ∧ ts = ts'
  | .close closing, d', ts, ts', h => by
    cases d' with
    | close closing' =>
      obtain ⟨rfl, rfl⟩ := word_eq h
      exact ⟨rfl, rfl⟩
    | comma comma items => nomatch kind_eq h
  | .comma comma items, d', ts, ts', h => by
    cases d' with
    | close closing' => nomatch kind_eq h
    | comma comma' items' =>
      obtain ⟨rfl, hitems⟩ := word_eq h
      obtain ⟨rfl, rfl⟩ := items.unique hitems
      exact ⟨rfl, rfl⟩
termination_by structural d => d

end

/-! ### Parameters and loop names -/

theorem Default.unique {d d' : Default} (h : d.tokens ++ ts = d'.tokens ++ ts') : d = d' ∧ ts = ts' := by
  cases d with
  | negative sign numeral =>
    cases d' with
    | negative sign' numeral' =>
      obtain ⟨rfl, hnumeral⟩ := word_eq h
      obtain ⟨rfl, rfl⟩ := Numeral.eq_of_tokens hnumeral
      exact ⟨rfl, rfl⟩
    | _ => nomatch kind_eq h
  | number numeral =>
    cases d' with
    | number numeral' =>
      obtain ⟨rfl, rfl⟩ := Numeral.eq_of_tokens h
      exact ⟨rfl, rfl⟩
    | _ => nomatch kind_eq h
  | string t =>
    cases d' with
    | string t' =>
      obtain ⟨rfl, rfl⟩ := word_eq h
      exact ⟨rfl, rfl⟩
    | _ => nomatch kind_eq h
  | trueWord t =>
    cases d' with
    | trueWord t' =>
      obtain ⟨rfl, rfl⟩ := word_eq h
      exact ⟨rfl, rfl⟩
    | _ => nomatch kind_eq h
  | falseWord t =>
    cases d' with
    | falseWord t' =>
      obtain ⟨rfl, rfl⟩ := word_eq h
      exact ⟨rfl, rfl⟩
    | _ => nomatch kind_eq h

theorem DefaultClause.unique {d d' : DefaultClause} {k k' : TokenKind} {t : Word k} {t' : Word k'} (hk : k ≠ .assign)
    (hk' : k' ≠ .assign) (h : d.tokens ++ t.val :: ts = d'.tokens ++ t'.val :: ts') :
    d = d' ∧ t.val :: ts = t'.val :: ts' := by
  cases d with
  | nothing =>
    cases d' with
    | nothing => exact ⟨rfl, h⟩
    | default sign value => exact absurd (kind_eq h) hk
  | default sign value =>
    cases d' with
    | nothing => exact absurd (kind_eq h).symm hk'
    | default sign' value' =>
      obtain ⟨rfl, hvalue⟩ := word_eq h
      obtain ⟨rfl, hrest⟩ := Default.unique hvalue
      exact ⟨rfl, hrest⟩

theorem Parameters.unique : ∀ {seen : List String} (d : Parameters seen) {d' : Parameters seen} {ts ts' : List Token},
    d.tokens ++ ts = d'.tokens ++ ts' → d = d' ∧ ts = ts'
  | _, .close closing, d', ts, ts', h => by
    cases d' with
    | close closing' =>
      obtain ⟨rfl, rfl⟩ := word_eq h
      exact ⟨rfl, rfl⟩
    | _ => nomatch kind_eq h
  | _, .last name hname default closing, d', ts, ts', h => by
    simp only [Parameters.tokens, List.cons_append, List.append_assoc] at h
    cases d' with
    | close closing' => nomatch kind_eq h
    | last name' hname' default' closing' =>
      simp only [Parameters.tokens, List.cons_append, List.append_assoc] at h
      obtain ⟨rfl, hdefault⟩ := word_eq h
      obtain ⟨rfl, hclosing⟩ := DefaultClause.unique (by decide) (by decide) hdefault
      obtain ⟨rfl, rfl⟩ := word_eq hclosing
      exact ⟨rfl, rfl⟩
    | cons name' hname' default' comma' more' =>
      simp only [Parameters.tokens, List.cons_append, List.append_assoc] at h
      obtain ⟨rfl, hdefault⟩ := word_eq h
      obtain ⟨-, hclosing⟩ := DefaultClause.unique (by decide) (by decide) hdefault
      nomatch kind_eq hclosing
  | _, .cons name hname default comma more, d', ts, ts', h => by
    simp only [Parameters.tokens, List.cons_append, List.append_assoc] at h
    cases d' with
    | close closing' => nomatch kind_eq h
    | last name' hname' default' closing' =>
      simp only [Parameters.tokens, List.cons_append, List.append_assoc] at h
      obtain ⟨rfl, hdefault⟩ := word_eq h
      obtain ⟨-, hcomma⟩ := DefaultClause.unique (by decide) (by decide) hdefault
      nomatch kind_eq hcomma
    | cons name' hname' default' comma' more' =>
      simp only [Parameters.tokens, List.cons_append, List.append_assoc] at h
      obtain ⟨rfl, hdefault⟩ := word_eq h
      obtain ⟨rfl, hcomma⟩ := DefaultClause.unique (by decide) (by decide) hdefault
      obtain ⟨rfl, hmore⟩ := word_eq hcomma
      obtain ⟨rfl, rfl⟩ := more.unique hmore
      exact ⟨rfl, rfl⟩

theorem LoopNames.unique {d d' : LoopNames} {k : TokenKind} {t t' : Word k} (hk : k ≠ .comma)
    (h : d.tokens ++ t.val :: ts = d'.tokens ++ t'.val :: ts') : d = d' ∧ t.val :: ts = t'.val :: ts' := by
  cases d with
  | one name =>
    cases d' with
    | one name' =>
      obtain ⟨rfl, hrest⟩ := word_eq h
      exact ⟨rfl, hrest⟩
    | two first comma second => exact absurd (kind_eq (word_eq h).2) hk
  | two first comma second =>
    cases d' with
    | one name' => exact absurd (kind_eq (word_eq h).2).symm hk
    | two first' comma' second' =>
      obtain ⟨rfl, hcomma⟩ := word_eq h
      obtain ⟨rfl, hsecond⟩ := word_eq hcomma
      obtain ⟨rfl, hrest⟩ := word_eq hsecond
      exact ⟨rfl, hrest⟩

/-! ### Bodies -/

theorem WordTag.unique {kind : TokenKind} {tag tag' : WordTag kind} (h : tag.tokens ++ ts = tag'.tokens ++ ts') :
    tag = tag' ∧ ts = ts' := by
  obtain ⟨opening, word, closing⟩ := tag
  obtain ⟨opening', word', closing'⟩ := tag'
  obtain ⟨rfl, hword⟩ := word_eq h
  obtain ⟨rfl, hclosing⟩ := word_eq hword
  obtain ⟨rfl, rfl⟩ := word_eq hclosing
  exact ⟨rfl, rfl⟩

mutual

theorem Nodes.unique : ∀ (d : Nodes) {d' : Nodes} {ts ts' : List Token}, Ends ts → Ends ts' →
    d.tokens ++ ts = d'.tokens ++ ts' → d = d' ∧ ts = ts'
  | .nil, d', ts, ts', hs, hs', h => by
    obtain rfl := Nodes.eq_nil hs h.symm
    exact ⟨rfl, h⟩
  | .text t more, d', ts, ts', hs, hs', h => by
    cases d' with
    | nil => nomatch Nodes.eq_nil hs' h
    | text t' more' =>
      obtain ⟨rfl, hmore⟩ := word_eq h
      obtain ⟨rfl, rfl⟩ := more.unique hs hs' hmore
      exact ⟨rfl, rfl⟩
    | _ => nomatch kind_eq h
  | .blank t more, d', ts, ts', hs, hs', h => by
    cases d' with
    | nil => nomatch Nodes.eq_nil hs' h
    | blank t' more' =>
      obtain ⟨rfl, hmore⟩ := word_eq h
      obtain ⟨rfl, rfl⟩ := more.unique hs hs' hmore
      exact ⟨rfl, rfl⟩
    | _ => nomatch kind_eq h
  | .comment t more, d', ts, ts', hs, hs', h => by
    cases d' with
    | nil => nomatch Nodes.eq_nil hs' h
    | comment t' more' =>
      obtain ⟨rfl, hmore⟩ := word_eq h
      obtain ⟨rfl, rfl⟩ := more.unique hs hs' hmore
      exact ⟨rfl, rfl⟩
    | _ => nomatch kind_eq h
  | .output opening expr closing more, d', ts, ts', hs, hs', h => by
    cases d' with
    | nil => nomatch Nodes.eq_nil hs' h
    | output opening' expr' closing' more' =>
      simp only [Nodes.tokens, List.cons_append, List.append_assoc] at h
      obtain ⟨rfl, hexpr⟩ := word_eq h
      obtain ⟨rfl, hclosing⟩ := expr.unique (stops_word closing (by decide)) (stops_word closing' (by decide)) hexpr
      obtain ⟨rfl, hmore⟩ := word_eq hclosing
      obtain ⟨rfl, rfl⟩ := more.unique hs hs' hmore
      exact ⟨rfl, rfl⟩
    | _ => nomatch kind_eq h
  | .statement opening statement more, d', ts, ts', hs, hs', h => by
    cases d' with
    | nil => nomatch Nodes.eq_nil hs' h
    | statement opening' statement' more' =>
      simp only [Nodes.tokens, List.cons_append, List.append_assoc] at h
      obtain ⟨rfl, hstatement⟩ := word_eq h
      obtain ⟨rfl, hmore⟩ := statement.unique hstatement
      obtain ⟨rfl, rfl⟩ := more.unique hs hs' hmore
      exact ⟨rfl, rfl⟩
    | _ => nomatch kind_eq h
termination_by structural d => d

theorem Statement.unique : ∀ (d : Statement) {d' : Statement} {ts ts' : List Token},
    d.tokens ++ ts = d'.tokens ++ ts' → d = d' ∧ ts = ts'
  | .branch word condition closing body rest, d', ts, ts', h => by
    cases d' with
    | branch word' condition' closing' body' rest' =>
      simp only [Statement.tokens, List.cons_append, List.append_assoc] at h
      obtain ⟨rfl, hcondition⟩ := word_eq h
      obtain ⟨rfl, hclosing⟩ := condition.unique (stops_word closing (by decide)) (stops_word closing' (by decide))
        hcondition
      obtain ⟨rfl, hbody⟩ := word_eq hclosing
      obtain ⟨rfl, hrest⟩ := body.unique rest.ends rest'.ends hbody
      obtain ⟨rfl, rfl⟩ := rest.unique hrest
      exact ⟨rfl, rfl⟩
    | _ => nomatch kind_eq h
  | .loop word names sign iterable closing body last, d', ts, ts', h => by
    cases d' with
    | loop word' names' sign' iterable' closing' body' last' =>
      simp only [Statement.tokens, List.cons_append, List.append_assoc] at h
      obtain ⟨rfl, hnames⟩ := word_eq h
      obtain ⟨rfl, hsign⟩ := LoopNames.unique (by decide) hnames
      obtain ⟨rfl, hiterable⟩ := word_eq hsign
      obtain ⟨rfl, hclosing⟩ := iterable.unique (stops_word closing (by decide)) (stops_word closing' (by decide))
        hiterable
      obtain ⟨rfl, hbody⟩ := word_eq hclosing
      obtain ⟨rfl, hlast⟩ := body.unique (last.ends (by decide)) (last'.ends (by decide)) hbody
      obtain ⟨rfl, rfl⟩ := WordTag.unique hlast
      exact ⟨rfl, rfl⟩
    | _ => nomatch kind_eq h
  | .macroDef word name paren parameters closing body last, d', ts, ts', h => by
    cases d' with
    | macroDef word' name' paren' parameters' closing' body' last' =>
      simp only [Statement.tokens, List.cons_append, List.append_assoc] at h
      obtain ⟨rfl, hname⟩ := word_eq h
      obtain ⟨rfl, hparen⟩ := word_eq hname
      obtain ⟨rfl, hparameters⟩ := word_eq hparen
      obtain ⟨rfl, hclosing⟩ := parameters.unique hparameters
      obtain ⟨rfl, hbody⟩ := word_eq hclosing
      obtain ⟨rfl, hlast⟩ := body.unique (last.ends (by decide)) (last'.ends (by decide)) hbody
      obtain ⟨rfl, rfl⟩ := WordTag.unique hlast
      exact ⟨rfl, rfl⟩
    | _ => nomatch kind_eq h
  | .assign word name sign value closing, d', ts, ts', h => by
    cases d' with
    | assign word' name' sign' value' closing' =>
      simp only [Statement.tokens, List.cons_append, List.append_assoc] at h
      obtain ⟨rfl, hname⟩ := word_eq h
      obtain ⟨rfl, hsign⟩ := word_eq hname
      obtain ⟨rfl, hvalue⟩ := word_eq hsign
      obtain ⟨rfl, hclosing⟩ := value.unique (stops_word closing (by decide)) (stops_word closing' (by decide)) hvalue
      obtain ⟨rfl, rfl⟩ := word_eq hclosing
      exact ⟨rfl, rfl⟩
    | _ => nomatch kind_eq h
termination_by structural d => d

theorem Alternative.unique : ∀ (d : Alternative) {d' : Alternative} {ts ts' : List Token},
    d.tokens ++ ts = d'.tokens ++ ts' → d = d' ∧ ts = ts'
  | .nothing last, d', ts, ts', h => by
    cases d' with
    | nothing last' =>
      obtain ⟨rfl, rfl⟩ := WordTag.unique h
      exact ⟨rfl, rfl⟩
    | _ => nomatch kind_eq (word_eq h).2
  | .otherwise tag body last, d', ts, ts', h => by
    cases d' with
    | otherwise tag' body' last' =>
      simp only [Alternative.tokens, List.append_assoc] at h
      obtain ⟨rfl, hbody⟩ := WordTag.unique h
      obtain ⟨rfl, hlast⟩ := body.unique (last.ends (by decide)) (last'.ends (by decide)) hbody
      obtain ⟨rfl, rfl⟩ := WordTag.unique hlast
      exact ⟨rfl, rfl⟩
    | _ => nomatch kind_eq (word_eq h).2
  | .elseIf opening word condition closing body rest, d', ts, ts', h => by
    cases d' with
    | elseIf opening' word' condition' closing' body' rest' =>
      simp only [Alternative.tokens, List.cons_append, List.append_assoc] at h
      obtain ⟨rfl, hword⟩ := word_eq h
      obtain ⟨rfl, hcondition⟩ := word_eq hword
      obtain ⟨rfl, hclosing⟩ := condition.unique (stops_word closing (by decide)) (stops_word closing' (by decide))
        hcondition
      obtain ⟨rfl, hbody⟩ := word_eq hclosing
      obtain ⟨rfl, hrest⟩ := body.unique rest.ends rest'.ends hbody
      obtain ⟨rfl, rfl⟩ := rest.unique hrest
      exact ⟨rfl, rfl⟩
    | _ => nomatch kind_eq (word_eq h).2
termination_by structural d => d

end

/-- Nodes are determined by their tokens. -/
theorem Nodes.eq_of_tokens {d d' : Nodes} (h : d.tokens = d'.tokens) : d = d' := by
  have hall : d.tokens ++ [] = d'.tokens ++ [] := by rw [h]
  exact (d.unique ends_nil ends_nil hall).1

end TemplatedSql.Grammar
