import TemplatedSql.Proofs.Except
import TemplatedSql.Tree.Parser.Body

/-! # What the parser reads

One equivalence for each step of the parser says what the step reads, and what it leaves, in terms of the steps it
is made of. -/

namespace TemplatedSql.Parser

variable {α β : Type} {n m : Nat} {stop : Position} {ts rest : List Token}

/-- The parser reads a value and leaves the rest. -/
def Reads (r : Except TemplateError (Parsed α n)) (v : α) (rest : List Token) : Prop :=
  ∃ h, r = .ok ⟨v, rest, h⟩

theorem Reads.shorter {r : Except TemplateError (Parsed α n)} {v : α} (h : Reads r v rest) : rest.length < n :=
  h.1

theorem reads_ok {p : Parsed α n} {v : α} : Reads (.ok p) v rest ↔ p.value = v ∧ p.rest = rest := by
  constructor
  · rintro ⟨h, hp⟩
    cases hp
    exact ⟨rfl, rfl⟩
  · rintro ⟨rfl, rfl⟩
    exact ⟨p.shorter, rfl⟩

theorem reads_error {e : TemplateError} {v : α} : ¬Reads (.error e : Except TemplateError (Parsed α n)) v rest := by
  rintro ⟨h, hp⟩
  cases hp

theorem reads_bind {r : Except TemplateError (Parsed α n)} {f : Parsed α n → Except TemplateError (Parsed β m)}
    {v : β} : Reads (r >>= f) v rest ↔ ∃ a ts, ∃ h : Reads r a ts, Reads (f ⟨a, ts, h.shorter⟩) v rest := by
  constructor
  · rintro ⟨h, hr⟩
    obtain ⟨⟨a, ts, hts⟩, ha, hv⟩ := bind_eq_ok_iff.mp hr
    exact ⟨a, ts, ⟨hts, ha⟩, h, hv⟩
  · rintro ⟨a, ts, ⟨_, ha⟩, h, hv⟩
    exact ⟨h, bind_eq_ok_iff.mpr ⟨_, ha, hv⟩⟩

theorem exists_iff_and {P P' Q : Prop} {R : P → Prop} (hP : P ↔ P') (h : ∀ hp, R hp ↔ Q) :
    (∃ hp, R hp) ↔ P' ∧ Q :=
  ⟨fun ⟨hp, hr⟩ => ⟨hP.mp hp, (h hp).mp hr⟩, fun ⟨hp, hq⟩ => ⟨hP.mpr hp, (h _).mpr hq⟩⟩

/-- A value that takes no reading. -/
theorem reads_bind_value {r : Except TemplateError α} {f : α → Except TemplateError (Parsed β m)} {v : β} :
    Reads (r >>= f) v rest ↔ ∃ a, r = .ok a ∧ Reads (f a) v rest := by
  constructor
  · rintro ⟨h, hr⟩
    obtain ⟨a, ha, hv⟩ := bind_eq_ok_iff.mp hr
    exact ⟨a, ha, h, hv⟩
  · rintro ⟨a, ha, h, hv⟩
    exact ⟨h, bind_eq_ok_iff.mpr ⟨a, ha, hv⟩⟩

theorem reads_expect {kind : TokenKind} {t : Token} :
    Reads (expect stop kind ts) t rest ↔ ts = t :: rest ∧ t.kind = kind := by
  cases ts with
  | nil => simp [expect, reads_error]
  | cons u us =>
    rw [expect]
    split
    · rename_i hu
      rw [reads_ok]
      constructor
      · rintro ⟨rfl, rfl⟩
        exact ⟨rfl, hu⟩
      · rintro ⟨h, -⟩
        cases h
        exact ⟨rfl, rfl⟩
    · rename_i hu
      constructor
      · exact fun h => (reads_error h).elim
      · rintro ⟨h, ht⟩
        cases h
        exact absurd ht hu

/-! ### Expressions -/

theorem reads_level_cons {l : Level} {t : Token} {e : Expr} : Reads (level stop l (t :: ts)) e rest ↔
    match l.sign? t.kind with
    | some (.apply op) => ∃ inner, .unary t.start op inner = e ∧ Reads (level stop l ts) inner rest
    | some .keep => Reads (level stop l ts) e rest
    | none => Reads (operation stop l (t :: ts)) e rest := by
  rw [level]
  cases h : l.sign? t.kind with
  | none => rfl
  | some sign => cases sign <;> simp [reads_bind, reads_ok, Parsed.as, Parsed.skip]

theorem reads_operation_operand {e : Expr} : Reads (operation stop .operand ts) e rest ↔
    ∃ target us, Reads (primary stop ts) target us ∧ Reads (postfixes stop target us) e rest := by
  rw [operation, dif_pos rfl]
  simp [reads_bind, reads_ok, Parsed.along]

theorem reads_operation {l : Level} (hl : l ≠ .operand) {e : Expr} : Reads (operation stop l ts) e rest ↔
    ∃ left us, Reads (level stop l.next ts) left us ∧ Reads (chain stop l left us) e rest := by
  rw [operation, dif_neg hl]
  simp [reads_bind, reads_ok, Parsed.along]

theorem reads_chain {l : Level} {left e : Expr} : Reads (chain stop l left ts) e rest ↔
    match operator? l ts with
    | none => left = e ∧ ts = rest
    | some operator => ∃ right us, Reads (level stop l.next operator.rest) right us ∧
        Reads (chain stop l (.binary operator.value.2 operator.value.1 left right) us) e rest := by
  rw [chain]
  cases h : operator? l ts with
  | none => simp [reads_ok, Parsed.nothing]
  | some operator => simp [reads_bind, reads_ok, Parsed.along, Parsed.skip, Parsed.after]

theorem reads_postfixes_nil {target e : Expr} : Reads (postfixes stop target []) e rest ↔ target = e ∧ [] = rest := by
  rw [postfixes]
  simp [reads_ok, Parsed.nothing]

theorem reads_postfixes_cons {target e : Expr} {t : Token} : Reads (postfixes stop target (t :: ts)) e rest ↔
    match t.kind with
    | .leftParen => ∃ arguments us, Reads (callArguments stop [] ts) arguments us ∧
        Reads (postfixes stop (.call target.position target arguments) us) e rest
    | .leftBracket => ∃ index us, Reads (level stop .or ts) index us ∧ ∃ close vs,
        (us = close :: vs ∧ close.kind = .rightBracket) ∧
          Reads (postfixes stop (.index t.start target index) vs) e rest
    | .dot => ∃ name us, (ts = name :: us ∧ name.kind = .identifier) ∧
        Reads (postfixes stop (.member name.start target name.text) us) e rest
    | _ => target = e ∧ t :: ts = rest := by
  rw [postfixes]
  split
  · simp [*, reads_bind, reads_ok, Parsed.along, Parsed.skip]
  · simp [*, reads_bind, reads_expect, reads_ok, Parsed.along, Parsed.skip, Parsed.after]
  · simp [*, reads_bind, reads_expect, reads_ok, Parsed.along, Parsed.skip]
  · simp_all [reads_ok, Parsed.nothing]

theorem reads_callArguments_cons {seen : List String} {t : Token} {arguments : List CallArgument} :
    Reads (callArguments stop seen (t :: ts)) arguments rest ↔
      if t.kind = .rightParen then [] = arguments ∧ ts = rest
      else match argumentName? (t :: ts) with
        | some name => name.value.text ∉ seen ∧ ∃ value us, Reads (level stop .or name.rest) value us ∧ ∃ more,
            ⟨some name.value.text, value⟩ :: more = arguments ∧
              Reads (moreArguments stop (name.value.text :: seen) us) more rest
        | none => ∃ value us, Reads (level stop .or (t :: ts)) value us ∧ ∃ more,
            ⟨none, value⟩ :: more = arguments ∧ Reads (moreArguments stop seen us) more rest := by
  rw [callArguments]
  split
  · simp [reads_ok, Parsed.nothing]
  · cases h : argumentName? (t :: ts) with
    | none => simp [reads_bind, reads_ok, Parsed.after, Parsed.as]
    | some name =>
      by_cases hseen : name.value.text ∈ seen
      · simp [hseen, reads_error]
      · simp [hseen, reads_bind, reads_ok, Parsed.after, Parsed.as]

theorem reads_moreArguments_cons {seen : List String} {t : Token} {arguments : List CallArgument} :
    Reads (moreArguments stop seen (t :: ts)) arguments rest ↔
      if t.kind = .comma then Reads (callArguments stop seen ts) arguments rest
      else [] = arguments ∧ t.kind = .rightParen ∧ ts = rest := by
  rw [moreArguments]
  split
  · simp [reads_bind, reads_ok, Parsed.skip]
  · simp [reads_bind, reads_expect, reads_ok, Parsed.as, and_assoc]

theorem reads_listItems_cons {t : Token} {items : List Expr} : Reads (listItems stop (t :: ts)) items rest ↔
    if t.kind = .rightBracket then [] = items ∧ ts = rest
    else ∃ value us, Reads (level stop .or (t :: ts)) value us ∧ ∃ more, value :: more = items ∧
      Reads (moreItems stop us) more rest := by
  rw [listItems]
  split
  · simp [reads_ok, Parsed.nothing]
  · simp [reads_bind, reads_ok, Parsed.after, Parsed.as]

theorem reads_moreItems_cons {t : Token} {items : List Expr} : Reads (moreItems stop (t :: ts)) items rest ↔
    if t.kind = .comma then Reads (listItems stop ts) items rest
    else [] = items ∧ t.kind = .rightBracket ∧ ts = rest := by
  rw [moreItems]
  split
  · simp [reads_bind, reads_ok, Parsed.skip]
  · simp [reads_bind, reads_expect, reads_ok, Parsed.as, and_assoc]

theorem readNumber_eq_ok {t : Token} {n : Float} : readNumber t = .ok n ↔ Number.ofString? t.text = some n := by
  unfold readNumber
  cases Number.ofString? t.text <;> simp

theorem reads_primary_cons {t : Token} {e : Expr} : Reads (primary stop (t :: ts)) e rest ↔
    match t.kind with
    | .number => ∃ n, Number.ofString? t.text = some n ∧ .literal t.start (.number n) = e ∧ ts = rest
    | .string => .literal t.start (.string t.text) = e ∧ ts = rest
    | .trueWord => .literal t.start (.boolean true) = e ∧ ts = rest
    | .falseWord => .literal t.start (.boolean false) = e ∧ ts = rest
    | .identifier => .name t.start t.text = e ∧ ts = rest
    | .leftParen => ∃ us, Reads (level stop .or ts) e us ∧ ∃ close, us = close :: rest ∧ close.kind = .rightParen
    | .leftBracket => ∃ items, .list t.start items = e ∧ Reads (listItems stop ts) items rest
    | _ => False := by
  rw [primary]
  split
  · simp [*, reads_bind_value, readNumber_eq_ok, reads_ok, Parsed.nothing]
  · simp [*, reads_ok, Parsed.nothing]
  · simp [*, reads_ok, Parsed.nothing]
  · simp [*, reads_ok, Parsed.nothing]
  · simp [*, reads_ok, Parsed.nothing]
  · simp [*, reads_bind, reads_expect, reads_ok, Parsed.after, Parsed.as, Parsed.skip]
  · simp [*, reads_bind, reads_ok, Parsed.as, Parsed.skip]
  · simp_all [reads_error]

/-- No expression is read from nothing. -/
theorem not_reads_level_nil {l : Level} {e : Expr} : ¬Reads (level stop l []) e rest := by
  induction hn : l.rank using Nat.strongRecOn generalizing l e rest with
  | _ n ih =>
    intro h
    rw [level] at h
    by_cases hl : l = .operand
    · subst hl
      obtain ⟨target, us, htarget, -⟩ := reads_operation_operand.mp h
      rw [primary] at htarget
      exact reads_error htarget
    · obtain ⟨left, us, hleft, -⟩ := (reads_operation hl).mp h
      exact ih _ (hn ▸ Level.rank_next_lt hl) rfl hleft

/-! ### Statements -/

theorem reads_literal_cons {t : Token} {v : Literal} : Reads (literal stop (t :: ts)) v rest ↔
    match t.kind with
    | .minus => ∃ u us, (ts = u :: us ∧ u.kind = .number) ∧
        ∃ n, Number.ofString? u.text = some n ∧ .number (-n) = v ∧ us = rest
    | .number => ∃ n, Number.ofString? t.text = some n ∧ .number n = v ∧ ts = rest
    | .string => .string t.text = v ∧ ts = rest
    | .trueWord => .boolean true = v ∧ ts = rest
    | .falseWord => .boolean false = v ∧ ts = rest
    | _ => False := by
  rw [literal]
  split
  · rw [reads_bind]
    simp [*, reads_bind_value, readNumber_eq_ok, reads_expect, reads_ok, Parsed.as, Parsed.skip]
  · simp [*, reads_bind_value, readNumber_eq_ok, reads_ok, Parsed.nothing]
  · simp [*, reads_ok, Parsed.nothing]
  · simp [*, reads_ok, Parsed.nothing]
  · simp [*, reads_ok, Parsed.nothing]
  · simp_all [reads_error]

theorem reads_default? {v : Option Literal} : Reads (default? stop ts) v rest ↔
    (none = v ∧ ts = rest ∧ ∀ t ∈ ts.head?, t.kind ≠ .assign) ∨
    ∃ sign us, ts = sign :: us ∧ sign.kind = .assign ∧ ∃ literal, some literal = v ∧
      Reads (Parser.literal stop us) literal rest := by
  cases ts with
  | nil => simp [default?, accept?, reads_ok, Parsed.nothing]
  | cons t us =>
    by_cases ht : t.kind = .assign
    · simp [default?, accept?, ht, reads_bind, reads_ok, Parsed.after, Parsed.as, Parsed.skip, and_assoc]
    · simp [default?, accept?, ht, reads_ok, Parsed.nothing]

theorem reads_parameters_cons {seen : List String} {t : Token} {ps : List Parameter} :
    Reads (parameters stop seen (t :: ts)) ps rest ↔
      if t.kind = .rightParen then [] = ps ∧ ts = rest
      else t.kind = .identifier ∧ t.text ∉ seen ∧ ∃ default us, Reads (default? stop ts) default us ∧
        match us with
        | [] => False
        | u :: vs =>
          if u.kind = .comma then
            ∃ more, ⟨t.text, default⟩ :: more = ps ∧ Reads (parameters stop (t.text :: seen) vs) more rest
          else [⟨t.text, default⟩] = ps ∧ u.kind = .rightParen ∧ vs = rest := by
  rw [parameters]
  split
  · simp [reads_ok, Parsed.nothing]
  · by_cases hkind : t.kind = .identifier
    · by_cases hseen : t.text ∈ seen
      · simp [hkind, hseen, reads_error]
      · rw [if_neg (not_not_intro hkind), if_neg (by simpa using hseen), reads_bind]
        simp only [hkind, hseen, not_false_eq_true, true_and]
        refine exists_congr fun default => exists_congr fun us => exists_iff_and Iff.rfl fun h => ?_
        cases us with
        | nil => simp [accept?, reads_bind, reads_expect]
        | cons u vs =>
          by_cases hu : u.kind = .comma
          · simp [accept?, hu, reads_bind, reads_ok, Parsed.after, Parsed.as]
          · simp [accept?, hu, reads_bind, reads_expect, reads_ok, Parsed.after, Parsed.as, and_assoc]
    · simp [hkind, reads_error]

theorem reads_targets {names : Targets} : Reads (targets stop ts) names rest ↔
    ∃ t us, (ts = t :: us ∧ t.kind = .identifier) ∧
      match us with
      | [] => .one t.text = names ∧ [] = rest
      | u :: vs =>
        if u.kind = .comma then ∃ second, .two t.text second.text = names ∧ vs = second :: rest ∧
          second.kind = .identifier
        else .one t.text = names ∧ u :: vs = rest := by
  unfold targets
  rw [reads_bind]
  refine exists_congr fun t => exists_congr fun us => exists_iff_and reads_expect fun h => ?_
  cases us with
  | nil => simp [accept?, reads_ok, Parsed.as]
  | cons comma vs =>
    by_cases hcomma : comma.kind = .comma
    · simp [accept?, hcomma, reads_bind, reads_expect, reads_ok, Parsed.after, Parsed.as]
    · simp [accept?, hcomma, reads_ok, Parsed.as]

theorem reads_closedExpression {e : Expr} : Reads (closedExpression stop ts) e rest ↔
    ∃ us, Reads (level stop .or ts) e us ∧ ∃ close, us = close :: rest ∧ close.kind = .stmtClose := by
  unfold closedExpression expression
  simp [reads_bind, reads_expect, reads_ok, Parsed.after, Parsed.as]

theorem reads_header {keyword : Token} {head : Header} : Reads (header stop keyword ts) head rest ↔
    match keyword.kind with
    | .ifWord => ∃ condition, .branch condition = head ∧ Reads (closedExpression stop ts) condition rest
    | .forWord => ∃ names us, Reads (targets stop ts) names us ∧ ∃ word vs, (us = word :: vs ∧ word.kind = .inWord) ∧
        ∃ iterable, .loop names iterable = head ∧ Reads (closedExpression stop vs) iterable rest
    | .macroWord => ∃ name us, (ts = name :: us ∧ name.kind = .identifier) ∧
        ∃ paren vs, (us = paren :: vs ∧ paren.kind = .leftParen) ∧
        ∃ ps ws, .macroDef name.text ps = head ∧ Reads (parameters stop [] vs) ps ws ∧
        ∃ close, ws = close :: rest ∧ close.kind = .stmtClose
    | .setWord => ∃ name us, (ts = name :: us ∧ name.kind = .identifier) ∧
        ∃ sign vs, (us = sign :: vs ∧ sign.kind = .assign) ∧
        ∃ value, .assign name.text value = head ∧ Reads (closedExpression stop vs) value rest
    | _ => False := by
  unfold header
  split
  · simp [*, reads_bind, reads_ok, Parsed.as]
  · simp [*, reads_bind, reads_expect, reads_ok, Parsed.after, Parsed.as]
  · simp [*, reads_bind, reads_expect, reads_ok, Parsed.after, Parsed.as]
  · simp [*, reads_bind, reads_expect, reads_ok, Parsed.after, Parsed.as]
  · simp_all [reads_error]

theorem reads_nodes_nil {ends : List TokenKind} {v : List Node × TokenKind} : Reads (nodes stop ends []) v rest ↔
    ends = [] ∧ ([], .eof) = v ∧ [] = rest := by
  rw [nodes]
  cases ends <;> simp [reads_ok, reads_error, Parsed.nothing]

theorem reads_nodes_cons {ends : List TokenKind} {t : Token} {v : List Node × TokenKind} :
    Reads (nodes stop ends (t :: ts)) v rest ↔
      match t.kind with
      | .text => ∃ more word, (.text t.start t.text :: more, word) = v ∧ Reads (nodes stop ends ts) (more, word) rest
      | .trimmedWhitespace | .comment => Reads (nodes stop ends ts) v rest
      | .exprOpen => ∃ expr us, Reads (level stop .or ts) expr us ∧
          ∃ close vs, (us = close :: vs ∧ close.kind = .exprClose) ∧
          ∃ more word, (.output t.start expr :: more, word) = v ∧ Reads (nodes stop ends vs) (more, word) rest
      | .stmtOpen =>
        match ts with
        | [] => False
        | keyword :: us =>
          if keyword.kind ∈ ends then ([], keyword.kind) = v ∧ us = rest
          else ∃ node vs, Reads (statement stop keyword us) node vs ∧
            ∃ more word, (node :: more, word) = v ∧ Reads (nodes stop ends vs) (more, word) rest
      | _ => False := by
  rw [nodes.eq_def]
  dsimp only
  split
  · simp [*, reads_bind, reads_ok, Parsed.as, Parsed.skip]
  · simp [*, reads_bind, reads_ok, Parsed.skip]
  · simp [*, reads_bind, reads_ok, Parsed.skip]
  · simp [*, expression, reads_bind, reads_expect, reads_ok, Parsed.after, Parsed.along, Parsed.as, Parsed.skip]
  · cases ts with
    | nil => simp [*, reads_error]
    | cons keyword us =>
      by_cases hk : keyword.kind ∈ ends
      · simp [*, reads_ok, Parsed.nothing, Parsed.skip]
      · simp [*, reads_bind, reads_ok, Parsed.along, Parsed.as, Parsed.skip]
  · simp_all [reads_error]

theorem reads_block {ends : List TokenKind} {body : Body} {word : TokenKind} :
    Reads (block stop ends ts) (body, word) rest ↔
      ∃ nodes, ⟨place stop ts, nodes⟩ = body ∧ Reads (Parser.nodes stop ends ts) (nodes, word) rest := by
  rw [block]
  simp [reads_bind, reads_ok, Parsed.as, and_assoc]

/-- A statement is read in the order of its parts. -/
theorem reads_statement {keyword : Token} {node : Node} : Reads (statement stop keyword ts) node rest ↔
    ∃ head us, Reads (header stop keyword ts) head us ∧
      match head with
      | .branch condition => ∃ body word vs,
          Reads (block stop [.elifWord, .elseWord, .endifWord] us) (body, word) vs ∧
          ∃ more, .branch keyword.start condition body more = node ∧ Reads (Parser.alternative stop word vs) more rest
      | .loop targets iterable => ∃ body word vs, .loop keyword.start targets iterable body = node ∧
          Reads (block stop [.endforWord] us) (body, word) vs ∧ ∃ close, vs = close :: rest ∧ close.kind = .stmtClose
      | .macroDef name ps => ∃ body word vs, .macroDef ⟨keyword.start, name, ps, body⟩ = node ∧
          Reads (block stop [.endmacroWord] us) (body, word) vs ∧ ∃ close, vs = close :: rest ∧ close.kind = .stmtClose
      | .assign name value => .assign keyword.start name value = node ∧ us = rest := by
  rw [statement, reads_bind]
  refine exists_congr fun head => exists_congr fun us => exists_iff_and Iff.rfl fun h => ?_
  cases head with
  | branch condition => simp [reads_bind, reads_ok, Parsed.along, Parsed.as, Parsed.skip]
  | loop targets iterable =>
    simp [reads_bind, reads_expect, reads_ok, Parsed.along, Parsed.after, Parsed.as, Parsed.skip]
  | macroDef name ps =>
    simp [reads_bind, reads_expect, reads_ok, Parsed.along, Parsed.after, Parsed.as, Parsed.skip]
  | assign name value => simp [reads_ok, Parsed.as, Parsed.skip]

theorem reads_alternative {word : TokenKind} {alternative : TemplatedSql.Alternative} :
    Reads (Parser.alternative stop word ts) alternative rest ↔
      match word with
      | .elifWord => ∃ condition us, Reads (closedExpression stop ts) condition us ∧
          ∃ body word vs, Reads (block stop [.elifWord, .elseWord, .endifWord] us) (body, word) vs ∧
          ∃ more, .elseIf condition body more = alternative ∧ Reads (Parser.alternative stop word vs) more rest
      | .elseWord => ∃ close us, (ts = close :: us ∧ close.kind = .stmtClose) ∧
          ∃ body word vs, .otherwise body = alternative ∧ Reads (block stop [.endifWord] us) (body, word) vs ∧
          ∃ last, vs = last :: rest ∧ last.kind = .stmtClose
      | _ => .nothing = alternative ∧ ∃ close, ts = close :: rest ∧ close.kind = .stmtClose := by
  rw [Parser.alternative.eq_def]
  split
  · simp [*, reads_bind, reads_ok, Parsed.along, Parsed.as, Parsed.skip]
  · simp [*, reads_bind, reads_expect, reads_ok, Parsed.along, Parsed.after, Parsed.as, Parsed.skip]
  · simp_all [reads_bind, reads_expect, reads_ok, Parsed.as, Parsed.skip]

end TemplatedSql.Parser
