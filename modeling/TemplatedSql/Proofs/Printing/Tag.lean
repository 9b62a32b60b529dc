import TemplatedSql.Proofs.Printing.Clean
import TemplatedSql.Proofs.Printing.Outside

/-! # The tags of statements are read back

What stands in a tag besides expressions: the words, the names that a loop binds and the parameters of a macro. -/

namespace TemplatedSql

open TemplatedSql.Grammar

variable {rest : List Char}

/-! ### The defaults of parameters -/

theorem Number.Numerical.head {body : List Char} (h : Number.Numerical body) :
    ∃ c part, body = c :: part ∧ c ∉ ['=', '}', '%', '-', '+'] := by
  obtain ⟨c, part, rfl, hc, -⟩ := h
  exact ⟨c, part, rfl, not_mem_of_starts (by decide) hc⟩

/-- A clean literal starts in a way that no equals sign before it goes on with. -/
theorem Literal.Clean.head {v : Literal} (h : v.Clean) : ∃ c cs, v.source.toList = c :: cs ∧ c ∉ ['=', '}', '%'] := by
  cases v with
  | boolean b =>
    cases b with
    | true => exact ⟨'t', _, rfl, by decide⟩
    | false => exact ⟨'f', _, rfl, by decide⟩
  | string s => exact ⟨'\'', _, by rw [Literal.source, Text.quote, String.toList_ofList]; rfl, by decide⟩
  | number n =>
    obtain ⟨body, hchars, htext | htext⟩ := Number.numerical_text h.1
    · obtain ⟨c, part, rfl, hc⟩ := hchars.head
      exact ⟨c, part, htext, fun hmem => hc (List.mem_append_left ['-', '+'] hmem)⟩
    · exact ⟨'-', body, htext, by decide⟩

/-- A default is read back, with a sign of its own if it is below zero. -/
theorem Literal.Clean.cuts {v : Literal} (h : v.Clean) (hrest : ∀ d ∈ rest.head?, isNumberPart d = false) :
    Cuts v.source.toList rest fun ts => ∃ d : Default, ts = d.tokens ∧ d.literal = v := by
  have hword : ∀ d ∈ rest.head?, isWordPart d = false := fun d hd => (Bool.or_eq_false_iff.mp (hrest d hd)).1
  cases v with
  | boolean b =>
    cases b with
    | true =>
      have htrue : Cuts ['t', 'r', 'u', 'e'] rest (Single .trueWord "true") :=
        cuts_word rfl (List.all_eq_true.mp rfl) hword
      refine htrue.mono ?_
      rintro ts ⟨t, -, rfl⟩
      exact ⟨.trueWord t, rfl, rfl⟩
    | false =>
      have hfalse : Cuts ['f', 'a', 'l', 's', 'e'] rest (Single .falseWord "false") :=
        cuts_word rfl (List.all_eq_true.mp rfl) hword
      refine hfalse.mono ?_
      rintro ts ⟨t, -, rfl⟩
      exact ⟨.falseWord t, rfl, rfl⟩
  | string s =>
    refine (cuts_string s).mono ?_
    rintro ts ⟨t, rfl, rfl⟩
    exact ⟨.string t, rfl, rfl⟩
  | number n =>
    obtain ⟨hfinite, hvalue⟩ := h
    obtain ⟨body, hchars, htext | htext⟩ := Number.numerical_text hfinite
    · rw [Literal.source, htext]
      rw [← String.ofList_toList (s := Number.text n), htext] at hvalue
      refine (cuts_numeral hchars hvalue hrest).mono ?_
      rintro ts ⟨numeral, rfl, rfl⟩
      exact ⟨.number numeral, rfl, rfl⟩
    · obtain ⟨c, part, rfl, hc⟩ := hchars.head
      simp only [List.mem_cons, List.not_mem_nil, or_false, not_or] at hc
      obtain ⟨hequals, hbrace, hpercent, hminus, hplus⟩ := hc
      -- The value of the signed text is that of its digits, negated.
      have hread : ∃ m, Number.ofString? (.ofList (c :: part)) = some m ∧ -m = n := by
        rw [Number.ofString?, htext, Number.read] at hvalue
        obtain ⟨m, hm, rfl⟩ := Option.map_eq_some_iff.mp hvalue
        refine ⟨m, ?_, rfl⟩
        rw [Number.ofString?, String.toList_ofList, Number.read]
        · exact hm
        · rintro r ⟨⟩
          exact hminus rfl
        · rintro r ⟨⟩
          exact hplus rfl
      obtain ⟨m, hm, rfl⟩ := hread
      rw [Literal.source, htext]
      have hfollow : c ∉ ['=', '}', '%'] := by simp [hequals, hbrace, hpercent]
      refine ((cuts_sign '-' .minus (by decide) hfollow).append (cuts_numeral hchars hm hrest)).mono ?_
      rintro ts ⟨_, _, rfl, ⟨sign, -, rfl⟩, numeral, rfl, rfl⟩
      exact ⟨.negative sign numeral, rfl, rfl⟩

/-! ### The parameters of a macro -/

/-- The parameters have different names, none of them among the names given. -/
def ProperlyDeclared : List String → List Parameter → Prop
  | _, [] => True
  | seen, q :: more => IsName q.name ∧ q.name ∉ seen ∧ ProperlyDeclared (q.name :: seen) more

theorem Grammar.Parameters.declared : ∀ {seen : List String} (d : Parameters seen), (∀ t ∈ d.tokens, t.Lexed) →
    ProperlyDeclared seen d.parameters
  | _, .close closing, _ => trivial
  | _, .last name hname default closing, h => by
    simp only [Parameters.tokens, List.forall_mem_cons] at h
    exact ⟨h.1.name name.property, hname, trivial⟩
  | _, .cons name hname default comma more, h => by
    simp only [Parameters.tokens, List.forall_mem_cons, List.forall_mem_append] at h
    exact ⟨h.1.name name.property, hname, more.declared h.2.2.2⟩

/-- A parameter is read back, however the parameters go on. -/
theorem cuts_parameter {q : Parameter} (hname : IsName q.name) (hclean : ∀ v ∈ q.default, v.Clean) {c : Char}
    (hc : isNumberPart c = false) : Cuts q.source.toList (c :: rest) fun ts => ∃ (name : Word .identifier)
      (default : DefaultClause), name.val.text = q.name ∧ default.literal? = q.default ∧
      ts = name.val :: default.tokens := by
  obtain ⟨name, _ | v⟩ := q
  · refine (cuts_name hname ?_).mono ?_
    · rintro d ⟨⟩
      exact (Bool.or_eq_false_iff.mp hc).1
    · rintro ts ⟨t, rfl, rfl⟩
      exact ⟨t, .nothing, rfl, rfl, rfl⟩
  · have hsource : (Parameter.mk name (some v)).source.toList = name.toList ++ (['='] ++ v.source.toList) := by
      simp [Parameter.source]
    have hv := hclean v rfl
    obtain ⟨first, cs, hhead, hfirst⟩ := hv.head
    have hsign : Cuts ['='] (v.source.toList ++ c :: rest) (Single .assign (.ofList ['='])) := by
      rw [hhead]
      exact cuts_sign '=' .assign (by decide) hfirst
    rw [hsource]
    refine ((cuts_name hname (by rintro _ ⟨⟩; rfl)).append <| hsign.append <| hv.cuts ?_).mono ?_
    · rintro d ⟨⟩
      exact hc
    · rintro ts ⟨_, _, rfl, ⟨t, rfl, rfl⟩, _, us, rfl, ⟨sign, -, rfl⟩, d, rfl, rfl⟩
      exact ⟨t, .default sign d, rfl, rfl, rfl⟩

/-- The parameters of a macro are read back with the parenthesis that closes them. -/
theorem cuts_parameters : ∀ (seen : List String) (parameters : List Parameter), ProperlyDeclared seen parameters →
    (∀ q ∈ parameters, ∀ v ∈ q.default, v.Clean) →
    Cuts ((", ".intercalate (parameters.map Parameter.source)).toList ++ [')']) rest fun ts =>
      ∃ d : Parameters seen, ts = d.tokens ∧ d.parameters = parameters
  | seen, [], _, _ => by
    rw [List.map_nil, String.intercalate_nil]
    refine (cuts_punctuation ')' .rightParen (by decide)).mono ?_
    rintro ts ⟨closing, -, rfl⟩
    exact ⟨.close closing, rfl, rfl⟩
  | seen, [⟨name, default⟩], hnames, hclean => by
    rw [List.map_singleton, String.intercalate_singleton]
    refine ((cuts_parameter hnames.1 (hclean _ List.mem_cons_self) rfl).append <|
      cuts_punctuation ')' .rightParen (by decide)).mono ?_
    rintro ts ⟨_, _, rfl, ⟨word, clause, rfl, rfl, rfl⟩, closing, -, rfl⟩
    exact ⟨.last word hnames.2.1 clause closing, rfl, rfl⟩
  | seen, ⟨name, default⟩ :: q :: qs, hnames, hclean => by
    obtain ⟨hq, hmore⟩ := List.forall_mem_cons.mp hclean
    have ih := cuts_parameters (name :: seen) (q :: qs) hnames.2.2 hmore
    rw [List.map_cons] at ih
    rw [List.map_cons, List.map_cons, toList_comma_join, List.append_assoc, List.append_assoc]
    refine ((cuts_parameter hnames.1 hq rfl).append <| (cuts_punctuation ',' .comma (by decide)).append <|
      ih.gap rfl).mono ?_
    rintro ts ⟨_, _, rfl, ⟨word, clause, rfl, rfl, rfl⟩, _, _, rfl, ⟨comma, -, rfl⟩, d, rfl, hd⟩
    exact ⟨.cons word hnames.2.1 clause comma d, rfl, by rw [Parameters.parameters, hd]⟩

/-! ### Statement tags -/

theorem toList_statementTag (body : String) :
    (statementTag body).toList = '{' :: '%' :: ' ' :: (body.toList ++ ' ' :: ['%', '}']) := by
  simp [statementTag]

theorem cuts_statementTag {body : String} {P : List Token → Prop}
    (h : Cuts body.toList (' ' :: (['%', '}'] ++ rest)) P) :
    CutsOutside (statementTag body).toList rest (Tagged .stmtOpen .stmtClose P) := by
  rw [toList_statementTag]
  exact cuts_tag (by decide) (by decide) h

/-- The words that stand alone in a tag or before a condition. -/
def blockWords : List (String × TokenKind) :=
  [("if", .ifWord), ("elif", .elifWord), ("else", .elseWord), ("endif", .endifWord), ("endfor", .endforWord),
    ("endmacro", .endmacroWord)]

theorem cuts_blockWord {word : String} {kind : TokenKind} (h : (word, kind) ∈ blockWords) (more : List Char) :
    Cuts word.toList (' ' :: more) (Single kind word) := by
  simp only [blockWords, List.mem_cons, Prod.mk.injEq, List.not_mem_nil, or_false] at h
  rcases h with ⟨rfl, rfl⟩ | ⟨rfl, rfl⟩ | ⟨rfl, rfl⟩ | ⟨rfl, rfl⟩ | ⟨rfl, rfl⟩ | ⟨rfl, rfl⟩
  · change Cuts ['i', 'f'] _ _
    exact .token rfl rfl rfl
  · change Cuts ['e', 'l', 'i', 'f'] _ _
    exact .token rfl rfl rfl
  · change Cuts ['e', 'l', 's', 'e'] _ _
    exact .token rfl rfl rfl
  · change Cuts ['e', 'n', 'd', 'i', 'f'] _ _
    exact .token rfl rfl rfl
  · change Cuts ['e', 'n', 'd', 'f', 'o', 'r'] _ _
    exact .token rfl rfl rfl
  · change Cuts ['e', 'n', 'd', 'm', 'a', 'c', 'r', 'o'] _ _
    exact .token rfl rfl rfl

theorem cuts_wordTag {word : String} {kind : TokenKind} (h : (word, kind) ∈ blockWords) :
    CutsOutside (statementTag word).toList rest fun ts => ∃ tag : WordTag kind, ts = tag.tokens := by
  refine (cuts_statementTag (cuts_blockWord h _)).mono ?_
  rintro ts ⟨opening, _, closing, rfl, t, -, rfl⟩
  exact ⟨⟨opening, t, closing⟩, rfl⟩

/-- A word and an expression after it. -/
theorem cuts_condition {word : String} {kind : TokenKind} {e : Expr} (h : (word, kind) ∈ blockWords)
    (he : ReadsBack e) :
    Cuts (word ++ " " ++ e.source).toList (' ' :: rest) (Both (Single kind word) (Derives e)) := by
  have hsource : (word ++ " " ++ e.source).toList = word.toList ++ (' ' :: e.source.toList) := by
    simp
  rw [hsource]
  exact (cuts_blockWord h _).append ((he.cuts (follows_cons rfl _)).gap rfl)

theorem cuts_targets {targets : Targets} (h : ∀ name ∈ targets.names, IsName name) :
    Cuts (' ' :: (", ".intercalate targets.names).toList) (' ' :: rest) fun ts =>
      ∃ names : LoopNames, ts = names.tokens ∧ names.targets = targets := by
  cases targets with
  | one name =>
    rw [Targets.names, String.intercalate_singleton]
    refine ((cuts_name (h name (List.mem_singleton_self _)) (by rintro _ ⟨⟩; rfl)).gap rfl).mono ?_
    rintro ts ⟨t, rfl, rfl⟩
    exact ⟨.one t, rfl, rfl⟩
  | two first second =>
    simp only [Targets.names, List.forall_mem_cons] at h
    rw [Targets.names, toList_comma_join, String.intercalate_singleton]
    refine (((cuts_name h.1 (by rintro _ ⟨⟩; rfl)).append <| (cuts_punctuation ',' .comma (by decide)).append <|
      (cuts_name h.2.1 (by rintro _ ⟨⟩; rfl)).gap rfl).gap rfl).mono ?_
    rintro ts ⟨_, _, rfl, ⟨a, rfl, rfl⟩, _, _, rfl, ⟨comma, -, rfl⟩, b, rfl, rfl⟩
    exact ⟨.two a comma b, rfl, rfl⟩

theorem cuts_loopHead {targets : Targets} {iterable : Expr} (hnames : ∀ name ∈ targets.names, IsName name)
    (he : ReadsBack iterable) :
    Cuts ("for " ++ ", ".intercalate targets.names ++ " in " ++ iterable.source).toList (' ' :: rest) fun ts =>
      ∃ (word : Word .forWord) (names : LoopNames) (sign : Word .inWord) (us : List Token),
        ts = word.val :: (names.tokens ++ sign.val :: us) ∧ names.targets = targets ∧ Derives iterable us := by
  have hsource : ("for " ++ ", ".intercalate targets.names ++ " in " ++ iterable.source).toList =
      ['f', 'o', 'r'] ++ ((' ' :: (", ".intercalate targets.names).toList) ++
        ((' ' :: ['i', 'n']) ++ (' ' :: iterable.source.toList))) := by
    simp
  have hfor : ∀ more, Cuts ['f', 'o', 'r'] (' ' :: more) (Single .forWord "for") := fun _ => .token rfl rfl rfl
  have hin : ∀ more, Cuts ['i', 'n'] (' ' :: more) (Single .inWord "in") := fun _ => .token rfl rfl rfl
  rw [hsource]
  refine ((hfor _).append <| (cuts_targets hnames).append <| ((hin _).gap rfl).append <|
    (he.cuts (follows_cons rfl _)).gap rfl).mono ?_
  rintro ts ⟨_, _, rfl, ⟨word, -, rfl⟩, _, _, rfl, ⟨names, rfl, rfl⟩, _, us, rfl, ⟨sign, -, rfl⟩, hus⟩
  exact ⟨word, names, sign, us, rfl, rfl, hus⟩

theorem cuts_macroHead {name : String} {parameters : List Parameter} (hname : IsName name)
    (hnames : ProperlyDeclared [] parameters) (hclean : ∀ q ∈ parameters, ∀ v ∈ q.default, v.Clean) :
    Cuts ("macro " ++ name ++ "(" ++ ", ".intercalate (parameters.map Parameter.source) ++ ")").toList
      (' ' :: rest) fun ts =>
      ∃ (word : Word .macroWord) (t : Word .identifier) (paren : Word .leftParen) (d : Parameters []),
        ts = word.val :: t.val :: paren.val :: d.tokens ∧ t.val.text = name ∧ d.parameters = parameters := by
  have hsource : ("macro " ++ name ++ "(" ++ ", ".intercalate (parameters.map Parameter.source) ++ ")").toList =
      ['m', 'a', 'c', 'r', 'o'] ++ ((' ' :: name.toList) ++
        (['('] ++ ((", ".intercalate (parameters.map Parameter.source)).toList ++ [')']))) := by
    simp
  have hword : ∀ more, Cuts ['m', 'a', 'c', 'r', 'o'] (' ' :: more) (Single .macroWord "macro") :=
    fun _ => .token rfl rfl rfl
  rw [hsource]
  refine ((hword _).append <| ((cuts_name hname (by rintro _ ⟨⟩; rfl)).gap rfl).append <|
    (cuts_punctuation '(' .leftParen (by decide)).append <| cuts_parameters [] parameters hnames hclean).mono ?_
  rintro ts ⟨_, _, rfl, ⟨word, -, rfl⟩, _, _, rfl, ⟨t, rfl, rfl⟩, _, _, rfl, ⟨paren, -, rfl⟩, d, rfl, hd⟩
  exact ⟨word, t, paren, d, rfl, rfl, hd⟩

theorem cuts_assignment {name : String} {e : Expr} (hname : IsName name) (he : ReadsBack e) :
    Cuts ("set " ++ name ++ " = " ++ e.source).toList (' ' :: rest) fun ts =>
      ∃ (word : Word .setWord) (t : Word .identifier) (sign : Word .assign) (us : List Token),
        ts = word.val :: t.val :: sign.val :: us ∧ t.val.text = name ∧ Derives e us := by
  have hsource : ("set " ++ name ++ " = " ++ e.source).toList =
      ['s', 'e', 't'] ++ ((' ' :: name.toList) ++ ((' ' :: ['=']) ++ (' ' :: e.source.toList))) := by
    simp
  have hset : ∀ more, Cuts ['s', 'e', 't'] (' ' :: more) (Single .setWord "set") := fun _ => .token rfl rfl rfl
  rw [hsource]
  refine ((hset _).append <| ((cuts_name hname (by rintro _ ⟨⟩; rfl)).gap rfl).append <|
    ((cuts_sign '=' .assign (by decide) (by decide)).gap rfl).append <|
    (he.cuts (follows_cons rfl _)).gap rfl).mono ?_
  rintro ts ⟨_, _, rfl, ⟨word, -, rfl⟩, _, _, rfl, ⟨t, rfl, rfl⟩, _, us, rfl, ⟨sign, -, rfl⟩, hus⟩
  exact ⟨word, t, sign, us, rfl, rfl, hus⟩

end TemplatedSql
