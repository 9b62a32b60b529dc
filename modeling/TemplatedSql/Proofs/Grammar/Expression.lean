import TemplatedSql.Proofs.Grammar.Advance

/-! # The cursor in expressions

Within a limit of ten calls for each token, and as many as there are levels, an expression is read to its end. -/

namespace TemplatedSql.Tape

open TemplatedSql.Parser (Parsed)

variable {last : Token} {tail ts : List Token} {c : Tape} {limit n : Nat} {l : Parser.Level}

/-- A run does what the parser does for an expression of a level, where the limit is ten for each token and enough for the
levels below. -/
def FollowsLevel (last : Token) (tail : List Token) (limit : Nat) (l : Parser.Level) (run : Run Expr) : Prop :=
  ∀ {ts : List Token} {c : Tape}, Stands tail ts c →
    Meets (limit < 10 * c.left.length + l.rank + 1) c.work (Gives tail (9 - l.rank) c)
      (told (Parser.level (stop last tail).start l ts)) run c

/-- A run does what the parser does for an expression. -/
def FollowsExpression (last : Token) (tail : List Token) (limit : Nat) (run : Run Expr) : Prop :=
  ∀ {ts : List Token} {c : Tape}, Stands tail ts c →
    Meets (limit < 10 * c.left.length + 10) c.work (Gives tail 1 c) (told (Parser.level (stop last tail).start .or ts))
      run c

/-- A run does what the parser does for the arguments of a call. -/
def FollowsArguments (last : Token) (tail : List Token) (limit : Nat) (run : Run (List CallArgument)) : Prop :=
  ∀ {ts : List Token} {c : Tape}, Stands tail ts c →
    Meets (limit < 10 * c.left.length + 11) (c.work + 1) (Gives tail 1 c)
      (told (Parser.callArguments (stop last tail).start [] ts)) run c

/-- A run does what the parser does for a primary expression. -/
def FollowsPrimary (last : Token) (tail : List Token) (limit : Nat) (run : Run Expr) : Prop :=
  ∀ {ts : List Token} {c : Tape}, Stands tail ts c →
    Meets (limit < 10 * c.left.length + 1) c.work (Gives tail 9 c) (told (Parser.primary (stop last tail).start ts)) run c

theorem rank_le (l : Parser.Level) : l.rank ≤ 8 := by
  cases l <;> decide

theorem operator?_eq_none (hl : joins l = false) : Parser.operator? l ts = none := by
  have hsingle (k : TokenKind) : l.operator? k = none := by
    cases l <;> first | (cases k <;> rfl) | cases hl
  have hne : l ≠ .comparison := by
    rintro rfl
    cases hl
  rw [Parser.operator?.eq_def]
  cases ts with
  | nil => rfl
  | cons t ts =>
    simp only [hsingle]
    cases ts with
    | nil => rfl
    | cons u ts => exact if_neg fun h => hne h.1

/-! ### Lists -/

section
variable {α β γ : Type} {k : Nat} {short : Prop} {most : Nat} {x : Run β} {acc : List α} {a : α} {position : Position}
  {seen : List String}

/-- What a step gives after a list that was read before. -/
def collected (acc : List α) (r : Except TemplateError (Parsed (List α) n)) : Except TemplateError (List α × List Token) :=
  r.map fun p => (acc ++ p.value, p.rest)

theorem collected_nil (r : Except TemplateError (Parsed (List α) n)) : collected [] r = told r := rfl

/-- A step of the parser that comes after one item of a list. -/
theorem Meets.item {post : Except TemplateError (List α × List Token) → β → Tape → Prop}
    {r : Except TemplateError (Parsed (List α) n)} {q : Parsed (List α) n → Parsed (List α) k}
    (h : Meets short most post (collected (acc ++ [a]) r) x c)
    (hq : ∀ p, (q p).value = a :: p.value ∧ (q p).rest = p.rest) :
    Meets short most post ((r >>= fun p => .ok (q p)).map fun p => (acc ++ p.value, p.rest)) x c := by
  have heq : ((r >>= fun p => .ok (q p)).map fun p => (acc ++ p.value, p.rest)) = collected (acc ++ [a]) r := by
    cases r with
    | error e => rfl
    | ok p => exact congrArg Except.ok (Prod.ext (by simp [(hq p).1]) (hq p).2)
  exact heq ▸ h

theorem level_nil (l : Parser.Level) :
    Parser.level position l [] = .error (Parser.mismatch position "expression" []) := by
  induction hk : l.rank using Nat.strongRecOn generalizing l with
  | ind k ih =>
    rw [Parser.level, Parser.operation]
    split
    · rw [Parser.primary]
      rfl
    · rename_i hl
      rw [ih _ (hk ▸ Parser.Level.rank_next_lt hl) _ rfl]
      rfl

theorem callArguments_positional {acc : List CallArgument} (h : ∀ t ∈ ts.head?, t.kind ≠ .rightParen)
    (hname : Parser.argumentName? ts = none) : collected acc (Parser.callArguments position seen ts) =
      (Parser.level position .or ts >>= fun value => Parser.moreArguments position seen value.rest >>= fun more =>
        .ok ((value.after more).as (⟨none, value.value⟩ :: more.value))).map fun p => (acc ++ p.value, p.rest) := by
  cases ts with
  | nil =>
    rw [Parser.callArguments, level_nil]
    rfl
  | cons t ts =>
    rw [Parser.callArguments, if_neg (h t rfl), hname]
    rfl

theorem callArguments_named {acc : List CallArgument} {name : Parsed Token ts.length}
    (hname : Parser.argumentName? ts = some name) : collected acc (Parser.callArguments position seen ts) =
      if seen.contains name.value.text then
        .error ⟨name.value.start, .parse "a unique argument name" name.value.describe⟩
      else
        (Parser.level position .or name.rest >>= fun value =>
          Parser.moreArguments position (name.value.text :: seen) value.rest >>= fun more =>
            .ok (((name.after value).after more).as (⟨some name.value.text, value.value⟩ :: more.value))).map
              fun p => (acc ++ p.value, p.rest) := by
  obtain ⟨sign, hts, hidentifier, -⟩ := Grammar.argumentName?_eq_some hname
  cases ts with
  | nil => cases hts
  | cons t ts =>
    have ht : t.kind ≠ .rightParen := by
      rw [(List.cons.inj hts).1, hidentifier]
      decide
    rw [Parser.callArguments, if_neg ht, hname]
    dsimp only
    split <;> rfl

/-- A comma goes on with further arguments, and otherwise there comes a parenthesis. -/
theorem collected_moreArguments {acc : List CallArgument} :
    collected acc (Parser.moreArguments position seen ts) =
      (Parser.accept? .comma ts).elim ((Parser.expect position .rightParen ts).map fun p => (acc, p.rest))
        fun comma => collected acc (Parser.callArguments position seen comma.rest) := by
  cases ts with
  | nil =>
    rw [Parser.moreArguments]
    rfl
  | cons t ts =>
    rw [Parser.moreArguments, Parser.accept?]
    by_cases ht : t.kind = .comma
    · rw [if_pos ht, if_pos ht, Option.elim_some]
      cases Parser.callArguments position seen ts <;> rfl
    · rw [if_neg ht, if_neg ht]
      cases Parser.expect position .rightParen (t :: ts) <;> simp [collected, bind, Except.bind, Except.map, Parsed.as]

theorem list_eq : (told (Parser.listItems position ts >>= fun items => .ok (items.as (Expr.list start items.value)).skip)) =
    (collected [] (Parser.listItems position ts)).map fun items => (.list start items.1, items.2) := by
  cases Parser.listItems position ts <;> rfl

theorem listItems_eq {acc : List Expr} (h : ∀ t ∈ ts.head?, t.kind ≠ .rightBracket) :
    collected acc (Parser.listItems position ts) =
      (Parser.level position .or ts >>= fun value => Parser.moreItems position value.rest >>= fun more =>
        .ok ((value.after more).as (value.value :: more.value))).map fun p => (acc ++ p.value, p.rest) := by
  cases ts with
  | nil =>
    rw [Parser.listItems, level_nil]
    rfl
  | cons t ts =>
    rw [Parser.listItems, if_neg (h t rfl)]
    rfl

/-- A comma goes on with further items, and otherwise there comes a bracket. -/
theorem collected_moreItems {acc : List Expr} :
    collected acc (Parser.moreItems position ts) =
      (Parser.accept? .comma ts).elim ((Parser.expect position .rightBracket ts).map fun p => (acc, p.rest))
        fun comma => collected acc (Parser.listItems position comma.rest) := by
  cases ts with
  | nil =>
    rw [Parser.moreItems]
    rfl
  | cons t ts =>
    rw [Parser.moreItems, Parser.accept?]
    by_cases ht : t.kind = .comma
    · rw [if_pos ht, if_pos ht, Option.elim_some]
      cases Parser.listItems position ts <;> rfl
    · rw [if_neg ht, if_neg ht]
      cases Parser.expect position .rightBracket (t :: ts) <;> simp [collected, bind, Except.bind, Except.map, Parsed.as]

end

section
variable (hstop : (stop last tail).kind = .eof)
include hstop

/-! ### Operators -/

theorem operatorTurn_ends {operand : Run Expr} (hoperand : FollowsLevel last tail limit l.next operand) {left : Expr}
    (hc : Stands tail ts c) (hn : c.left.length ≤ n) :
    Meets (limit < 10 * n + l.next.rank + 1) c.work
      (TurnEnds tail (fun _ => True) (fun left ts => told (Parser.chain (stop last tail).start l left ts))
        (fun e rest => .ok (e, rest)) c)
      (told (Parser.chain (stop last tail).start l left ts)) (operatorTurn last l operand left) c := by
  rw [operatorTurn]
  refine .find (hc.operator? hstop l) (fun hnone => ?_) fun ⟨⟨op, position⟩, rest, _⟩ c' hsome hstands hmoves => ?_
  · rw [Parser.chain, hnone]
    exact .pure ⟨ts, rfl, hc, .refl c⟩
  · rw [Parser.chain, hsome]
    have hlength := hmoves.length_le
    have hwork := hmoves.work_le
    refine .step (hoperand hstands) (fun h => by omega) (by omega) fun right c'' _ hstands' hmoves' => ?_
    refine .pure ⟨trivial, right.rest, told_bind_ok fun _ => ⟨rfl, rfl⟩, hstands', (hmoves.trans hmoves').weaken ?_⟩
    have := rank_le l.next
    omega

/-- The operands of a level, after the loop of a level that has one. -/
theorem joined_follows {operand : Run Expr} (hoperand : FollowsLevel last tail limit l.next operand) (hl : l ≠ .operand)
    (hc : Stands tail ts c) :
    Meets (limit + 1 < 10 * c.left.length + l.rank + 1) c.work (Gives tail (9 - l.rank) c)
      (told (Parser.operation (stop last tail).start l ts)) (joined last limit l operand) c := by
  have hrank := Parser.Level.rank_next_lt hl
  have hmost := rank_le l
  rw [joined, Parser.operation, dif_neg hl]
  refine .step (hoperand hc) (fun h => by omega) (Nat.le_refl _) fun left c' _ hstands hmoves => ?_
  refine .lastStep ?_ fun _ => ⟨rfl, rfl⟩
  cases hjoins : joins l with
  | true =>
    have hless := hmoves.length_lt (by omega)
    have hwork := hmoves.work_le
    refine (meets_repeatTurns (.operators l) (fun _ => operatorTurn_ends hstop hoperand) limit _ trivial hstands (Nat.le_refl _)
      fun h => by omega).mono (fun h => by omega) (by omega) ?_
    rintro e c'' ⟨rest, hm, hstands', hmoves'⟩
    exact ⟨rest, hm, hstands', (hmoves.trans hmoves').weaken (by omega)⟩
  | false =>
    rw [Parser.chain, operator?_eq_none hjoins]
    exact .pure ⟨left.rest, rfl, hstands, hmoves.weaken (by omega)⟩

/-! ### Calls, indexes and attributes -/

theorem postfixTurn_ends {expression : Run Expr} {arguments : Run (List CallArgument)}
    (hexpression : FollowsExpression last tail limit expression) (harguments : FollowsArguments last tail limit arguments)
    {target : Expr} (hc : Stands tail ts c) (hn : c.left.length ≤ n + 1) :
    Meets (limit < 10 * n + 11) c.work
      (TurnEnds tail (fun _ => True) (fun target ts => told (Parser.postfixes (stop last tail).start target ts))
        (fun e rest => .ok (e, rest)) c)
      (told (Parser.postfixes (stop last tail).start target ts)) (postfixTurn last expression arguments target) c := by
  rw [postfixTurn]
  refine .peek ?_
  cases ts with
  | nil =>
    rw [hc.kind_nil hstop, Parser.postfixes]
    exact .pure ⟨[], rfl, hc, .refl c⟩
  | cons t ts =>
    have hmoves : Moves 9 c (c.next last) := hc.moves_next
    have hlength := hmoves.length_lt (by decide)
    have hwork := hmoves.work_le
    rw [hc.token_cons]
    split
    case h_1 hk =>
      rw [Parser.postfixes, hk]
      refine .advance (.step (harguments hc.next) (fun h => by omega) (by omega) fun given c' _ hstands hmoves' => ?_)
      exact .pure ⟨trivial, given.rest, told_bind_ok fun _ => ⟨rfl, rfl⟩, hstands, (hmoves.trans hmoves').weaken (by decide)⟩
    case h_2 hk =>
      rw [Parser.postfixes, hk]
      refine .advance (.step (hexpression hc.next) (fun h => by omega) (by omega) fun index c' _ hstands hmoves' => ?_)
      have hwork' := hmoves'.work_le
      refine .step (hstands.expect hstop (by decide)) id (by omega) fun close c'' _ hstands' hmoves'' => ?_
      rw [hc.token_cons]
      exact .pure ⟨trivial, close.rest, told_bind_ok fun _ => ⟨rfl, rfl⟩, hstands',
        ((hmoves.trans hmoves').trans hmoves'').weaken (by decide)⟩
    case h_3 hk =>
      rw [Parser.postfixes, hk]
      refine .advance (.step (hc.next.expect hstop (by decide)) id (by omega) fun name c' _ hstands hmoves' => ?_)
      exact .pure ⟨trivial, name.rest, told_bind_ok fun _ => ⟨rfl, rfl⟩, hstands, (hmoves.trans hmoves').weaken (by decide)⟩
    case h_4 =>
      refine .pure ⟨t :: ts, ?_, hc, .refl c⟩
      rw [Parser.postfixes]
      split <;> first | contradiction | rfl

/-! ### Items and arguments -/

theorem itemTurn_ends {expression : Run Expr} (hexpression : FollowsExpression last tail limit expression)
    {items : List Expr} (hc : Stands tail ts c) (hn : c.left.length ≤ n) :
    Meets (limit < 10 * n + 10) c.work
      (TurnEnds tail (fun _ => True) (fun items ts => collected items (Parser.listItems (stop last tail).start ts))
        (fun items ts => (Parser.expect (stop last tail).start .rightBracket ts).map fun p => (items, p.rest)) c)
      (collected items (Parser.listItems (stop last tail).start ts)) (itemTurn last expression items) c := by
  rw [itemTurn]
  refine hc.unlessClosed hstop (by decide) ?_ fun hopen => ?_
  · rintro t rest rfl ht
    rw [Parser.listItems, Parser.expect, if_pos ht, if_pos ht]
    simp [collected, Except.map, Parsed.nothing]
  · rw [listItems_eq hopen]
    refine .step (hexpression hc) (fun h => by omega) (Nat.le_refl _) fun value c' _ hstands hmoves => ?_
    exact .item (hstands.separated hstop hmoves trivial collected_moreItems) fun _ => ⟨rfl, rfl⟩

/-- The names of arguments, the latest first. -/
def names (arguments : List CallArgument) : List String :=
  (arguments.filterMap (·.name)).reverse

omit hstop in
theorem contains_names (arguments : List CallArgument) (text : String) :
    (names arguments).contains text = arguments.any (·.name == some text) := by
  rw [Bool.eq_iff_iff]
  simp [names]

/-- The name of an argument, if it has one that no other has. -/
theorem Stands.argumentName? {α γ : Type} {short : Prop} {most : Nat} {m : Except TemplateError γ}
    {post : Except TemplateError γ → α → Tape → Prop} {f : Option String → Run α} {arguments : List CallArgument}
    (h : Stands tail ts c) (hmost : c.turns.length ≤ most)
    (hnone : Parser.argumentName? ts = none → Meets short most post m (f none) c)
    (hrepeated : ∀ p, Parser.argumentName? ts = some p → (names arguments).contains p.value.text = true →
      m = .error ⟨p.value.start, .parse "a unique argument name" p.value.describe⟩)
    (hsome : ∀ (p : Parsed Token ts.length) (c' : Tape), Parser.argumentName? ts = some p →
      (names arguments).contains p.value.text = false → Stands tail p.rest c' → Moves 18 c c' →
      Meets short most post m (f (some p.value.text)) c') :
    Meets short most post m (argumentName? last arguments >>= f) c := by
  refine .bind (P := fun _ o c' => (Parser.argumentName? ts = none ∧ o = none ∧ c' = c) ∨
    ∃ p, Parser.argumentName? ts = some p ∧ (names arguments).contains p.value.text = false ∧ o = some p.value.text ∧
      Stands tail p.rest c' ∧ Moves 18 c c') ?_ ?_
  · rw [Tape.argumentName?]
    refine .peek (.peekSecond ?_)
    match ts, h, hrepeated with
    | [], h, _ =>
      rw [h.kind_nil hstop, if_neg (by simp)]
      exact .pure (.inl ⟨rfl, rfl, rfl⟩)
    | [t], h, _ =>
      rw [h.kind_second hstop, if_neg (by simp)]
      exact .pure (.inl ⟨rfl, rfl, rfl⟩)
    | t :: u :: ts, h, hrepeated =>
      rw [h.token_cons, h.second_cons]
      rw [Parser.argumentName?] at hrepeated ⊢
      by_cases hname : t.kind = .identifier ∧ u.kind = .assign
      · rw [if_pos hname] at hrepeated
        rw [if_pos hname, if_pos hname]
        refine .advance ?_
        rw [h.token_cons, ← contains_names]
        cases hseen : (names arguments).contains t.text with
        | true => exact .fails (hrepeated _ rfl hseen) hmost (.refl _)
        | false =>
          refine .advance (.pure (.inr ⟨_, rfl, hseen, rfl, h.next.next, ?_⟩))
          exact (h.moves_next.trans h.next.moves_next).weaken (by decide)
      · rw [if_neg hname, if_neg hname]
        exact .pure (.inl ⟨rfl, rfl, rfl⟩)
  · rintro o c' (⟨hfound, rfl, rfl⟩ | ⟨p, hfound, hseen, rfl, hstands, hmoves⟩)
    · exact hnone hfound
    · exact hsome p c' hfound hseen hstands hmoves

theorem argumentTurn_ends {expression : Run Expr} (hexpression : FollowsExpression last tail limit expression)
    {arguments : List CallArgument} (hc : Stands tail ts c) (hn : c.left.length ≤ n) :
    Meets (limit < 10 * n + 10) c.work
      (TurnEnds tail (fun _ => True)
        (fun arguments ts => collected arguments (Parser.callArguments (stop last tail).start (names arguments) ts))
        (fun arguments ts => (Parser.expect (stop last tail).start .rightParen ts).map fun p => (arguments, p.rest)) c)
      (collected arguments (Parser.callArguments (stop last tail).start (names arguments) ts))
      (argumentTurn last expression arguments) c := by
  rw [argumentTurn]
  refine hc.unlessClosed hstop (by decide) ?_ fun hopen => ?_
  · rintro t rest rfl ht
    rw [Parser.callArguments, Parser.expect, if_pos ht, if_pos ht]
    simp [collected, Except.map, Parsed.nothing]
  · refine hc.argumentName? hstop c.turns_le_work (fun hnone => ?_) (fun name hname hseen => ?_)
      fun name c' hname hseen hstands hmoves => ?_
    · rw [callArguments_positional hopen hnone]
      refine .step (hexpression hc) (fun h => by omega) (Nat.le_refl _) fun value c' _ hstands hmoves => ?_
      have hseen : names (arguments ++ [⟨none, value.value⟩]) = names arguments := by simp [names]
      refine .item (hstands.separated hstop hmoves trivial ?_) fun _ => ⟨rfl, rfl⟩
      rw [hseen, collected_moreArguments]
    · rw [callArguments_named hname, if_pos hseen]
    · have hlength := hmoves.length_le
      have hwork := hmoves.work_le
      rw [callArguments_named hname, hseen, if_neg Bool.false_ne_true]
      refine .step (hexpression hstands) (fun h => by omega) (by omega) fun value c'' _ hstands' hmoves' => ?_
      have hseen' : names (arguments ++ [⟨some name.value.text, value.value⟩]) = name.value.text :: names arguments := by
        simp [names]
      refine .item (hstands'.separated hstop ((hmoves.trans hmoves').weaken (by decide)) trivial ?_) fun _ => ⟨rfl, rfl⟩
      rw [hseen', collected_moreArguments]

end

/-! ### From one limit to the next -/

/-- Within a limit the runs do what the parser does. -/
structure Follows (last : Token) (tail : List Token) (limit : Nat) : Prop where
  expression : FollowsExpression last tail limit (expression last limit)
  level : ∀ l, FollowsLevel last tail limit l (level last limit l)
  arguments : FollowsArguments last tail limit (arguments last limit)
  primary : FollowsPrimary last tail limit (primary last limit)

namespace Follows
variable (hstop : (stop last tail).kind = .eof) (h : Follows last tail limit)
include hstop h

theorem arguments_succ : FollowsArguments last tail (limit + 1) (Tape.arguments last (limit + 1)) := by
  intro ts c hc
  rw [Tape.arguments, ← collected_nil]
  have hloop := meets_repeatTurns .arguments (fun _ => argumentTurn_ends hstop h.expression) limit [] trivial
    hc (Nat.le_refl _) fun h => by omega
  refine .bind (hloop.weaken (fun h => by omega) (Nat.le_refl _)) ?_
  rintro given c' ⟨rest, hm, hstands, hmoves⟩
  have hwork := hmoves.work_le
  rw [show collected [] (Parser.callArguments (stop last tail).start [] ts) = _ from hm]
  refine .finish (hstands.expect hstop (by decide)) id (by omega) fun close c'' hstands' hmoves' => ?_
  exact .pure ⟨close.rest, rfl, hstands', (hmoves.trans hmoves').weaken (by decide)⟩

/-- A primary expression and the loop over what is applied to it. -/
theorem applied_succ (hc : Stands tail ts c) :
    Meets (limit + 1 < 10 * c.left.length + 2) c.work (Gives tail 8 c)
      (told (Parser.operation (stop last tail).start .operand ts))
      (applied last limit (Tape.primary last limit) (Tape.expression last limit) (Tape.arguments last limit)) c := by
  rw [applied, Parser.operation, dif_pos rfl]
  refine .step (h.primary hc) (fun h => by omega) (Nat.le_refl _) fun target c' _ hstands hmoves => ?_
  refine .lastStep ?_ fun _ => ⟨rfl, rfl⟩
  have hless := hmoves.length_lt (by decide)
  have hwork := hmoves.work_le
  have hloop := meets_repeatTurns .postfixes (n := c'.left.length)
    (fun _ hc hn => postfixTurn_ends hstop h.expression h.arguments hc (Nat.le_succ_of_le hn)) limit target.value trivial
    hstands (Nat.le_refl _) fun h => by omega
  refine hloop.mono (fun h => by omega) (by omega) ?_
  rintro e c'' ⟨rest, hm, hstands', hmoves'⟩
  exact ⟨rest, hm, hstands', (hmoves.trans hmoves').weaken (by decide)⟩

theorem level_succ (l : Parser.Level) : FollowsLevel last tail (limit + 1) l (Tape.level last (limit + 1) l) := by
  intro ts c hc
  -- Where no prefix operator comes first.
  have hoperation : Meets (limit + 1 < 10 * c.left.length + l.rank + 1) c.work (Gives tail (9 - l.rank) c)
      (told (Parser.operation (stop last tail).start l ts))
      (if l = .operand then
        applied last limit (Tape.primary last limit) (Tape.expression last limit) (Tape.arguments last limit)
      else joined last limit l (Tape.level last limit l.next)) c := by
    split
    · rename_i hl
      subst hl
      exact applied_succ hstop h hc
    · rename_i hl
      exact joined_follows hstop (h.level l.next) hl hc
  rw [Tape.level]
  refine .peek ?_
  cases ts with
  | nil =>
    have heof : l.sign? .eof = none := by cases l <;> rfl
    rw [hc.kind_nil hstop, heof, Parser.level]
    exact hoperation
  | cons t ts =>
    rw [hc.token_cons, Parser.level]
    cases hsign : l.sign? t.kind with
    | none => exact hoperation
    | some sign =>
      have hmoves : Moves 9 c (c.next last) := hc.moves_next
      have hlength := hmoves.length_lt (by decide)
      have hwork := hmoves.work_le
      have hrank := rank_le l
      cases sign with
      | apply op =>
        refine .advance (.step (h.level l hc.next) (fun h => by omega) (by omega) fun inner c' _ hstands hmoves' => ?_)
        exact .pure ⟨inner.rest, rfl, hstands, (hmoves.trans hmoves').weaken (by omega)⟩
      | keep =>
        refine .advance (.step (h.level l hc.next) (fun h => by omega) (by omega) fun inner c' _ hstands hmoves' => ?_)
        exact .pure ⟨inner.rest, rfl, hstands, (hmoves.trans hmoves').weaken (by omega)⟩

theorem primary_succ : FollowsPrimary last tail (limit + 1) (Tape.primary last (limit + 1)) := by
  intro ts c hc
  rw [Tape.primary]
  refine .peek ?_
  cases ts with
  | nil =>
    rw [hc.kind_nil hstop, Parser.primary]
    exact hc.unexpected hstop c.turns_le_work rfl
  | cons t ts =>
    have hmoves : Moves 9 c (c.next last) := hc.moves_next
    have hlength := hmoves.length_lt (by decide)
    have hwork := hmoves.work_le
    rw [hc.token_cons]
    split
    case h_1 hk =>
      rw [Parser.primary, hk]
      exact .number c.turns_le_work fun v _ => hc.single _
    case h_2 hk | h_3 hk | h_4 hk | h_5 hk =>
      rw [Parser.primary, hk]
      exact hc.single _
    case h_6 hk =>
      rw [Parser.primary, hk]
      refine .advance (.step (h.expression hc.next) (fun h => by omega) (by omega) fun inner c' _ hstands hmoves' => ?_)
      have hwork' := hmoves'.work_le
      refine .step (hstands.expect hstop (by decide)) id (by omega) fun close c'' _ hstands' hmoves'' => ?_
      exact .pure ⟨close.rest, rfl, hstands', ((hmoves.trans hmoves').trans hmoves'').weaken (by decide)⟩
    case h_7 hk =>
      have hnext : Stands tail ts (c.next last) := hc.next
      have hloop := meets_repeatTurns .items (fun _ => itemTurn_ends hstop h.expression) limit [] trivial hnext
        (Nat.le_refl _) fun h => by omega
      rw [Parser.primary, hk, list_eq]
      refine .advance (.loop (hloop.weaken (fun h => by omega) (by omega)) ?_)
      rintro items c' ⟨rest, hm, hstands, hmoves'⟩
      have hwork' := hmoves'.work_le
      rw [hm, map_map]
      refine .finish (hstands.expect hstop (by decide)) id (by omega) fun close c'' hstands' hmoves'' => ?_
      exact .pure ⟨close.rest, rfl, hstands', ((hmoves.trans hmoves').trans hmoves'').weaken (by decide)⟩
    case h_8 =>
      rw [Parser.primary]
      split <;> first | contradiction | exact hc.unexpected hstop c.turns_le_work rfl

omit hstop in
theorem expression_succ : FollowsExpression last tail (limit + 1) (Tape.expression last (limit + 1)) := by
  intro ts c hc
  rw [Tape.expression]
  exact (h.level .or hc).weaken (fun h => by simp only [Parser.Level.rank] at h; omega) (Nat.le_refl _)

end Follows

theorem follows (hstop : (stop last tail).kind = .eof) (limit : Nat) : Follows last tail limit := by
  induction limit with
  | zero =>
    refine ⟨fun _ => .stuck (by omega), fun l _ _ _ => ?_, fun _ => .stuck (by omega), fun _ => .stuck (by omega)⟩
    exact .stuck (by omega)
  | succ limit ih =>
    exact ⟨ih.expression_succ, ih.level_succ hstop, ih.arguments_succ hstop, ih.primary_succ hstop⟩

end TemplatedSql.Tape
