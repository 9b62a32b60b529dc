import TemplatedSql.Proofs.Grammar.Expression
import TemplatedSql.Proofs.Grammar.Sound

/-! # The cursor in statements

Blocks and statements are inside one another only where a token opened them, so ten calls for each token are enough for
them as well. -/

namespace TemplatedSql.Tape

open TemplatedSql.Parser (Parsed)

variable {last keyword : Token} {tail ts : List Token} {c : Tape} {limit n : Nat} {position : Position}

/-! ### What the parser does in sequence -/

theorem parameterNames_contains (parameters : List Parameter) (text : String) :
    ((parameters.map (·.name)).reverse).contains text = parameters.any (·.name == text) := by
  rw [Bool.eq_iff_iff]
  simp

theorem told_branch (h : keyword.kind = .ifWord) : told (Parser.statement position keyword ts) =
    Parser.level position .or ts >>= fun condition => Parser.expect position .stmtClose condition.rest >>= fun close =>
      Parser.block position [.elifWord, .elseWord, .endifWord] close.rest >>= fun body =>
        Parser.alternative position body.value.2 body.rest >>= fun rest =>
          .ok (.branch keyword.start condition.value body.value.1 rest.value, rest.rest) := by
  rw [Parser.statement, Parser.header]
  simp only [told, h, Parser.closedExpression, Parser.expression, bind_assoc, ok_bind, map_bind, Parsed.as]
  rfl

theorem told_loop (h : keyword.kind = .forWord) : told (Parser.statement position keyword ts) =
    Parser.targets position ts >>= fun names => Parser.expect position .inWord names.rest >>= fun word =>
      Parser.level position .or word.rest >>= fun iterable =>
        Parser.expect position .stmtClose iterable.rest >>= fun close =>
          Parser.block position [.endforWord] close.rest >>= fun body =>
            Parser.expect position .stmtClose body.rest >>= fun closing =>
              .ok (.loop keyword.start names.value iterable.value body.value.1, closing.rest) := by
  rw [Parser.statement, Parser.header]
  simp only [told, h, Parser.closedExpression, Parser.expression, bind_assoc, ok_bind, map_bind, Parsed.as]
  rfl

theorem told_macroDef (h : keyword.kind = .macroWord) : told (Parser.statement position keyword ts) =
    Parser.expect position .identifier ts >>= fun name => Parser.expect position .leftParen name.rest >>= fun paren =>
      Parser.parameters position [] paren.rest >>= fun parameters =>
        Parser.expect position .stmtClose parameters.rest >>= fun close =>
          Parser.block position [.endmacroWord] close.rest >>= fun body =>
            Parser.expect position .stmtClose body.rest >>= fun closing =>
              .ok (.macroDef ⟨keyword.start, name.value.text, parameters.value, body.value.1⟩, closing.rest) := by
  rw [Parser.statement, Parser.header]
  simp only [told, h, bind_assoc, ok_bind, map_bind, Parsed.as]
  rfl

theorem told_assign (h : keyword.kind = .setWord) : told (Parser.statement position keyword ts) =
    Parser.expect position .identifier ts >>= fun name => Parser.expect position .assign name.rest >>= fun sign =>
      Parser.level position .or sign.rest >>= fun value => Parser.expect position .stmtClose value.rest >>= fun close =>
        .ok (.assign keyword.start name.value.text value.value, close.rest) := by
  rw [Parser.statement, Parser.header]
  simp only [told, h, Parser.closedExpression, Parser.expression, bind_assoc, ok_bind, map_bind, Parsed.as]
  rfl

theorem told_refused (hif : keyword.kind ≠ .ifWord) (hfor : keyword.kind ≠ .forWord) (hdef : keyword.kind ≠ .macroWord)
    (hset : keyword.kind ≠ .setWord) : told (Parser.statement position keyword ts) =
      .error (Parser.mismatch position "statement keyword (`if`, `for`, `macro` or `set`)" (keyword :: ts)) := by
  rw [Parser.statement, Parser.header]
  split <;> first | contradiction | rfl

theorem parameters_eq {acc : List Parameter} {seen : List String} (h : ∀ t ∈ ts.head?, t.kind ≠ .rightParen) :
    collected acc (Parser.parameters position seen ts) =
      Parser.expect position .identifier ts >>= fun name =>
        if seen.contains name.value.text then
          .error ⟨name.value.start, .parse "a unique parameter name" name.value.describe⟩
        else Parser.default? position name.rest >>= fun value =>
          (Parser.accept? .comma value.rest).elim
            ((Parser.expect position .rightParen value.rest).map fun close =>
              (acc ++ [⟨name.value.text, value.value⟩], close.rest))
            fun comma => collected (acc ++ [⟨name.value.text, value.value⟩])
              (Parser.parameters position (name.value.text :: seen) comma.rest) := by
  cases ts with
  | nil =>
    rw [Parser.parameters]
    rfl
  | cons t ts =>
    rw [Parser.parameters, if_neg (h t rfl), Parser.expect]
    by_cases ht : t.kind = .identifier
    · rw [if_neg (not_not_intro ht), if_pos ht, ok_bind]
      split
      · rfl
      · simp only [collected]
        cases Parser.default? position ts with
        | error e => rfl
        | ok value =>
          simp only [ok_bind]
          cases Parser.accept? .comma value.rest with
          | none => cases Parser.expect position .rightParen value.rest <;> rfl
          | some comma =>
            cases hmore : Parser.parameters position (t.text :: seen) comma.rest with
            | error e => simp [hmore, bind, Except.bind, Except.map]
            | ok more => simp [hmore, bind, Except.bind, Except.map, Parsed.as, Parsed.after]
    · rw [if_pos ht, if_neg ht]
      rfl

section
variable {short : Prop} (hstop : (stop last tail).kind = .eof)
include hstop

/-! ### Literals and parameters -/

/-- A literal, a number perhaps after a minus sign. -/
theorem Stands.literal (hc : Stands tail ts c) :
    Meets short c.work (Gives tail 9 c) (told (Parser.literal (stop last tail).start ts)) (literal last) c := by
  rw [Tape.literal]
  refine .find (hc.eat hstop (by decide)) (fun hnone => ?_) fun minus c' hminus hstands hmoves => ?_
  · refine .peek ?_
    cases ts with
    | nil =>
      rw [hc.kind_nil hstop]
      exact hc.unexpected hstop c.turns_le_work rfl
    | cons t ts =>
      have ht : t.kind ≠ .minus := fun ht => by simp [Parser.accept?, ht] at hnone
      rw [hc.token_cons, Parser.literal]
      split
      case h_1 hk => exact absurd hk ht
      case h_2 hk =>
        rw [hk]
        exact .number c.turns_le_work fun v _ => hc.single _
      case h_3 hk | h_4 hk | h_5 hk =>
        rw [hk]
        exact hc.single _
      case h_6 =>
        rw [Option.isSome_none]
        split <;> first | contradiction | exact hc.unexpected hstop c.turns_le_work rfl
  · cases ts with
    | nil => cases hminus
    | cons t ts =>
      rw [Parser.accept?] at hminus
      split at hminus
      · rename_i ht
        obtain rfl := Option.some.inj hminus
        have hmost := Nat.le_trans c'.turns_le_work (by have := hmoves.work_le; omega : c'.work ≤ c.work)
        rw [Parser.literal, ht]
        refine .peek ?_
        dsimp only
        cases ts with
        | nil =>
          rw [hstands.kind_nil hstop]
          exact hstands.unexpected hstop hmost rfl
        | cons u us =>
          rw [hstands.token_cons, Parser.expect]
          by_cases hu : u.kind = .number
          · rw [if_pos hu, hu]
            refine .number hmost fun v _ => .advance (.pure ⟨us, rfl, hstands.next, ?_⟩)
            exact (hmoves.trans hstands.moves_next).weaken (by decide)
          · rw [if_neg hu, Option.isSome_some]
            split <;> first | contradiction | exact hstands.unexpected hstop hmost rfl
      · cases hminus

/-- The default of a parameter, if it has one. -/
theorem Stands.default? (hc : Stands tail ts c) :
    Meets short c.work (Gives tail 0 c) (told (Parser.default? (stop last tail).start ts)) (default? last) c := by
  rw [Tape.default?, Parser.default?]
  refine .find (hc.eat hstop (by decide)) (fun hnone => ?_) fun sign c' hsign hstands hmoves => ?_
  · rw [hnone]
    exact .pure ⟨ts, rfl, hc, .refl c⟩
  · have hwork := hmoves.work_le
    rw [hsign]
    refine .step (hstands.literal hstop) id (by omega) fun value c'' _ hstands' hmoves' => ?_
    exact .pure ⟨value.rest, rfl, hstands', (hmoves.trans hmoves').weaken (by decide)⟩

theorem parameterTurn_ends {parameters : List Parameter} (hc : Stands tail ts c) :
    Meets short c.work
      (TurnEnds tail (fun _ => True)
        (fun parameters ts => collected parameters
          (Parser.parameters (stop last tail).start ((parameters.map (·.name)).reverse) ts))
        (fun parameters ts => (Parser.expect (stop last tail).start .rightParen ts).map fun p => (parameters, p.rest)) c)
      (collected parameters (Parser.parameters (stop last tail).start ((parameters.map (·.name)).reverse) ts))
      (parameterTurn last parameters) c := by
  rw [parameterTurn]
  refine hc.unlessClosed hstop (by decide) ?_ fun hopen => ?_
  · rintro t rest rfl ht
    rw [Parser.parameters, Parser.expect, if_pos ht, if_pos ht]
    simp [collected, Except.map, Parsed.nothing]
  · rw [parameters_eq hopen]
    refine .andThen (hc.expect hstop (by decide)) id (Nat.le_refl _) fun name c' _ hstands hmoves => ?_
    have hwork := hmoves.work_le
    rw [parameterNames_contains]
    split
    · exact .fails rfl (Nat.le_trans c'.turns_le_work (by omega)) (.refl c')
    · refine .andThen (hstands.default? hstop) id (by omega) fun value c'' _ hstands' hmoves' => ?_
      exact hstands'.separated hstop ((hmoves.trans hmoves').weaken (by decide)) trivial (by simp)

/-- The parameters of a macro, in fewer turns than there are tokens. -/
theorem Stands.parameters (hc : Stands tail ts c) :
    Meets (limit ≤ c.left.length) (c.work + 1) (Gives tail 8 c)
      (told (Parser.parameters (stop last tail).start [] ts)) (parameters last limit) c := by
  rw [Tape.parameters, ← collected_nil]
  have hloop := meets_repeatTurns .parameters (fun _ hc _ => parameterTurn_ends hstop hc) limit [] trivial hc
    (Nat.le_refl _) id
  refine .bind hloop ?_
  rintro given c' ⟨rest, hm, hstands, hmoves⟩
  have hwork := hmoves.work_le
  rw [show collected [] (Parser.parameters (stop last tail).start [] ts) = _ from hm]
  refine .finish (hstands.expect hstop (by decide)) id (by omega) fun close c'' hstands' hmoves' => ?_
  exact .pure ⟨close.rest, rfl, hstands', (hmoves.trans hmoves').weaken (by decide)⟩

/-- The names that a loop binds. -/
theorem Stands.targets (hc : Stands tail ts c) :
    Meets short c.work (Gives tail 9 c) (told (Parser.targets (stop last tail).start ts)) (targets last) c := by
  rw [Tape.targets, Parser.targets]
  refine .step (hc.expect hstop (by decide)) id (Nat.le_refl _) fun first c' _ hstands hmoves => ?_
  have hwork := hmoves.work_le
  refine .find (hstands.eat hstop (by decide)) (fun hnone => ?_) fun comma c'' hcomma hstands' hmoves' => ?_
  · rw [hnone]
    exact .pure ⟨first.rest, rfl, hstands, hmoves⟩
  · have hwork' := hmoves'.work_le
    rw [hcomma]
    refine .step (hstands'.expect hstop (by decide)) id (by omega) fun second d _ hstands'' hmoves'' => ?_
    exact .pure ⟨second.rest, rfl, hstands'', ((hmoves.trans hmoves').trans hmoves'').weaken (by decide)⟩

end

/-! ### Bodies in sequence -/

/-- A statement from its keyword on. -/
def tag (position : Position) : Parser.Step Node
  | [] => .error (Parser.mismatch position "statement keyword (`if`, `for`, `macro` or `set`)" [])
  | keyword :: rest => Parser.statement position keyword rest

/-- What nodes give after those that were read before, and the word at which they end unless they go on to the end of the
tokens. -/
def gathered (ends : List TokenKind) (acc : List Node) (r : Except TemplateError (Parsed (List Node × TokenKind) n)) :
    Except TemplateError ((List Node × Option TokenKind) × List Token) :=
  r.map fun p => ((acc ++ p.value.1, if ends.isEmpty then none else some p.value.2), p.rest)

section
variable {t : Token} {ends : List TokenKind} {acc : List Node}

/-- Nodes that come after others. -/
theorem gathered_front {k : Nat} {front : List Node} {r : Except TemplateError (Parsed (List Node × TokenKind) n)}
    {q : Parsed (List Node × TokenKind) n → Parsed (List Node × TokenKind) k}
    (hq : ∀ p, (q p).value = (front ++ p.value.1, p.value.2) ∧ (q p).rest = p.rest) :
    gathered ends acc (r >>= fun p => .ok (q p)) = gathered ends (acc ++ front) r := by
  cases r with
  | error e => rfl
  | ok p => exact congrArg Except.ok (by simp [(hq p).1, (hq p).2])

theorem nodes_text (ht : t.kind = .text) : gathered ends acc (Parser.nodes position ends (t :: ts)) =
    gathered ends (acc ++ [.text t.start t.text]) (Parser.nodes position ends ts) := by
  rw [Parser.nodes.eq_def]
  dsimp only
  rw [ht]
  exact gathered_front fun _ => ⟨rfl, rfl⟩

theorem nodes_dropped (ht : t.kind = .trimmedWhitespace ∨ t.kind = .comment) :
    gathered ends acc (Parser.nodes position ends (t :: ts)) = gathered ends acc (Parser.nodes position ends ts) := by
  rw [Parser.nodes.eq_def]
  dsimp only
  rcases ht with ht | ht <;> rw [ht] <;> cases Parser.nodes position ends ts <;> rfl

theorem nodes_output (ht : t.kind = .exprOpen) : gathered ends acc (Parser.nodes position ends (t :: ts)) =
    Parser.level position .or ts >>= fun e => Parser.expect position .exprClose e.rest >>= fun close =>
      gathered ends (acc ++ [.output t.start e.value]) (Parser.nodes position ends close.rest) := by
  rw [Parser.nodes.eq_def]
  dsimp only
  rw [ht, gathered, map_bind]
  refine bind_congr fun e => ?_
  rw [map_bind]
  exact bind_congr fun close => gathered_front fun _ => ⟨rfl, rfl⟩

theorem nodes_tag (ht : t.kind = .stmtOpen) (h : ∀ u ∈ ts.head?, u.kind ∉ ends) :
    gathered ends acc (Parser.nodes position ends (t :: ts)) =
      tag position ts >>= fun node => gathered ends (acc ++ [node.value]) (Parser.nodes position ends node.rest) := by
  rw [Parser.nodes.eq_def]
  dsimp only
  rw [ht]
  cases ts with
  | nil => rfl
  | cons keyword ts =>
    dsimp only
    rw [if_neg (by simpa using h keyword rfl), gathered, map_bind, tag]
    exact bind_congr fun node => gathered_front fun _ => ⟨rfl, rfl⟩

theorem nodes_end (ht : t.kind = .stmtOpen) (h : keyword.kind ∈ ends) :
    gathered ends acc (Parser.nodes position ends (t :: keyword :: ts)) = .ok ((acc, some keyword.kind), ts) := by
  have hends : ends ≠ [] := List.ne_nil_of_mem h
  rw [Parser.nodes.eq_def]
  dsimp only
  rw [ht]
  dsimp only
  rw [if_pos (by simpa using h)]
  simp [gathered, Except.map, Parsed.nothing, Parsed.skip, hends]

/-- A block is nodes from a place on, which end at one of its tags. -/
theorem told_block (hends : ends ≠ []) : told (Parser.block position ends ts) =
    (gathered ends [] (Parser.nodes position ends ts)).map fun p =>
      ((⟨Parser.place position ts, p.1.1⟩, p.1.2.getD .eof), p.2) := by
  rw [Parser.block, gathered, map_map]
  cases Parser.nodes position ends ts with
  | error e => rfl
  | ok more => simp [told, bind, Except.bind, Except.map, Parsed.as, hends]

theorem gathered_ne_none {r : Except TemplateError (Parsed (List Node × TokenKind) n)} {nodes : List Node}
    {rest : List Token} (hends : ends ≠ []) : gathered ends acc r ≠ .ok ((nodes, none), rest) := by
  cases r with
  | error e => rintro ⟨⟩
  | ok more => simp [gathered, Except.map, hends]

theorem block_word {p : Parsed (Body × TokenKind) (ts.length + 1)} (hends : ends ≠ [])
    (h : Parser.block position ends ts = .ok p) : p.value.2 ∈ ends := by
  obtain ⟨-, -, last, -, hword, -⟩ := Grammar.block_sound (Grammar.nodesSound ts.length) hends (Nat.le_refl _)
    (⟨p.shorter, h⟩ : Parser.Reads _ (p.value.1, p.value.2) p.rest)
  exact hword

end

/-! ### What the runs do -/

/-- A run does what the parser does for nodes. -/
def FollowsNodes (last : Token) (tail : List Token) (limit : Nat)
    (run : List TokenKind → Run (List Node × Option TokenKind)) : Prop :=
  ∀ {ends : List TokenKind} {ts : List Token} {c : Tape}, .eof ∉ ends → Stands tail ts c →
    Meets (limit < 10 * c.left.length + 2) (c.work + 1) (Gives tail (-1) c)
      (gathered ends [] (Parser.nodes (stop last tail).start ends ts)) (run ends) c

/-- A run does what the parser does for the body of a block. -/
def FollowsBlock (last : Token) (tail : List Token) (limit : Nat) (run : List TokenKind → Run (Body × TokenKind)) :
    Prop :=
  ∀ {ends : List TokenKind} {ts : List Token} {c : Tape}, ends ≠ [] → .eof ∉ ends → Stands tail ts c →
    Meets (limit < 10 * c.left.length + 3) (c.work + 1) (Gives tail (-1) c)
      (told (Parser.block (stop last tail).start ends ts)) (run ends) c

/-- A run does what the parser does for a statement. -/
def FollowsStatement (last : Token) (tail : List Token) (limit : Nat) (run : Run Node) : Prop :=
  ∀ {ts : List Token} {c : Tape}, Stands tail ts c →
    Meets (limit < 10 * c.left.length + 2) c.work (Gives tail 1 c) (told (tag (stop last tail).start ts)) run c

/-- A run does what the parser does for a statement after its keyword. -/
def FollowsKeyword (last : Token) (tail : List Token) (limit : Nat) (kind : TokenKind) (run : Position → Run Node) : Prop :=
  ∀ {t : Token} {ts : List Token} {c : Tape}, t.kind = kind → Stands tail ts c →
    Meets (limit < 10 * c.left.length + 11) c.work (Gives tail 1 c)
      (told (Parser.statement (stop last tail).start t ts)) (run t.start) c

section
variable (hstop : (stop last tail).kind = .eof)
include hstop

theorem nodeTurn_ends {expression : Run Expr} {statement : Run Node} {ends : List TokenKind} {acc : List Node}
    (hexpression : FollowsExpression last tail limit expression) (hstatement : FollowsStatement last tail limit statement)
    (hends : .eof ∉ ends) (hc : Stands tail ts c) (hn : c.left.length ≤ n) :
    Meets (limit < 10 * n + 1) c.work
      (TurnEnds tail (fun _ => True) (fun acc ts => gathered ends acc (Parser.nodes (stop last tail).start ends ts))
        (fun read rest => .ok (read, rest)) c)
      (gathered ends acc (Parser.nodes (stop last tail).start ends ts)) (nodeTurn last ends expression statement acc) c := by
  rw [nodeTurn]
  refine .peek ?_
  cases ts with
  | nil =>
    rw [hc.kind_nil hstop, Parser.nodes]
    dsimp only
    split
    · rename_i hempty
      exact .pure ⟨[], by simp [gathered, Except.map, Parsed.nothing, hempty], hc, .refl c⟩
    · exact hc.unexpected hstop c.turns_le_work rfl
  | cons t ts =>
    have hmoves : Moves 9 c (c.next last) := hc.moves_next
    have hlength := hmoves.length_lt (by decide)
    have hwork := hmoves.work_le
    rw [hc.token_cons]
    split
    case h_1 hk => exact absurd hk (hc.inner t List.mem_cons_self)
    case h_2 hk =>
      rw [nodes_text hk]
      exact .advance (.pure ⟨trivial, ts, rfl, hc.next, hmoves.weaken (by decide)⟩)
    case h_3 hk =>
      rw [nodes_dropped (.inl hk)]
      exact .advance (.pure ⟨trivial, ts, rfl, hc.next, hmoves.weaken (by decide)⟩)
    case h_4 hk =>
      rw [nodes_dropped (.inr hk)]
      exact .advance (.pure ⟨trivial, ts, rfl, hc.next, hmoves.weaken (by decide)⟩)
    case h_5 hk =>
      rw [nodes_output hk]
      refine .advance (.andThen (hexpression hc.next) (fun h => by omega) (by omega) fun e c' _ hstands hmoves' => ?_)
      have hwork' := hmoves'.work_le
      refine .andThen (hstands.expect hstop (by decide)) id (by omega) fun close c'' _ hstands' hmoves'' => ?_
      exact .pure ⟨trivial, close.rest, rfl, hstands', ((hmoves.trans hmoves').trans hmoves'').weaken (by decide)⟩
    case h_6 hk =>
      refine .peekSecond ?_
      by_cases hword : (c.left.tail.head?.getD last).kind ∈ ends
      · rw [if_pos (by simpa using hword)]
        cases ts with
        | nil => exact absurd (hc.kind_second hstop ▸ hword) hends
        | cons u us =>
          rw [hc.second_cons] at hword
          rw [nodes_end hk hword]
          refine .advance (.advance (.pure ⟨us, by rw [hc.next.token_cons], hc.next.next, ?_⟩))
          exact (hmoves.trans hc.next.moves_next).weaken (by decide)
      · rw [if_neg (by simpa using hword)]
        have hhead : ∀ u ∈ ts.head?, u.kind ∉ ends := by
          cases ts with
          | nil => simp
          | cons u us =>
            rw [hc.second_cons] at hword
            simpa using hword
        rw [nodes_tag hk hhead]
        refine .advance (.andThen (hstatement hc.next) (fun h => by omega) (by omega) fun node c' _ hstands hmoves' => ?_)
        exact .pure ⟨trivial, node.rest, rfl, hstands, (hmoves.trans hmoves').weaken (by decide)⟩
    case h_7 =>
      rw [Parser.nodes.eq_def]
      dsimp only
      split <;> first | contradiction | exact hc.unexpected hstop c.turns_le_work rfl

end

/-! ### Arms -/

/-- A word that may come after arms: nothing but the end comes after a last body. -/
def Arms.Before (arms : Arms) (word : TokenKind) : Prop :=
  word ∈ [.elifWord, .elseWord, .endifWord] ∧ (arms.otherwise = none ∨ word = .endifWord)

/-- What a condition gives after the arms that were read before. -/
def armed (arms : Arms) (r : Except TemplateError (Parsed Alternative n)) :
    Except TemplateError (Alternative × List Token) :=
  r.map fun p => (arms.before p.value, p.rest)

section
variable {arms : Arms}

theorem Arms.before_further (h : arms.otherwise = none) (condition : Expr) (body : Body) (rest : Alternative) :
    Arms.before { arms with further := arms.further ++ [(condition, body)] } rest =
      arms.before (.elseIf condition body rest) := by
  simp [before, h]

theorem Arms.before_otherwise (h : arms.otherwise = none) (body : Body) (rest : Alternative) :
    Arms.before { arms with otherwise := some body } rest = arms.before (.otherwise body) := by
  simp [before, h]

theorem armed_elseIf (h : arms.otherwise = none) : armed arms (Parser.alternative position .elifWord ts) =
    Parser.level position .or ts >>= fun condition => Parser.expect position .stmtClose condition.rest >>= fun close =>
      Parser.block position [.elifWord, .elseWord, .endifWord] close.rest >>= fun body =>
        armed { arms with further := arms.further ++ [(condition.value, body.value.1)] }
          (Parser.alternative position body.value.2 body.rest) := by
  rw [Parser.alternative]
  simp only [armed, Parser.closedExpression, Parser.expression, bind_assoc, ok_bind, map_eq_bind, Parsed.as,
    Arms.before_further h]
  rfl

theorem armed_otherwise (h : arms.otherwise = none) : armed arms (Parser.alternative position .elseWord ts) =
    Parser.expect position .stmtClose ts >>= fun close => Parser.block position [.endifWord] close.rest >>= fun body =>
      armed { arms with otherwise := some body.value.1 } (Parser.alternative position .endifWord body.rest) := by
  rw [Parser.alternative]
  simp only [armed, Parser.alternative, bind_assoc, ok_bind, map_eq_bind, Parsed.as, Arms.before_otherwise h]
  rfl

theorem armed_nothing : armed arms (Parser.alternative position .endifWord ts) =
    (Parser.expect position .stmtClose ts).map fun close => (arms.before .nothing, close.rest) := by
  simp only [armed, Parser.alternative, bind_assoc, ok_bind, map_eq_bind, Parsed.as]
  rfl

end

section
variable (hstop : (stop last tail).kind = .eof)
include hstop

theorem branchTurn_ends {expression : Run Expr} {block : List TokenKind → Run (Body × TokenKind)} {arms : Arms}
    {word : TokenKind} (hexpression : FollowsExpression last tail limit expression)
    (hblock : FollowsBlock last tail limit block) (hword : arms.Before word) (hc : Stands tail ts c)
    (hn : c.left.length ≤ n) :
    Meets (limit < 10 * n + 10) c.work
      (TurnEnds tail (fun s => s.1.Before s.2)
        (fun s ts => armed s.1 (Parser.alternative (stop last tail).start s.2 ts))
        (fun arms rest => .ok (arms.before .nothing, rest)) c)
      (armed arms (Parser.alternative (stop last tail).start word ts)) (branchTurn last expression block (arms, word)) c := by
  obtain ⟨hmem, hlast⟩ := hword
  simp only [List.mem_cons, List.not_mem_nil, or_false] at hmem
  rcases hmem with rfl | rfl | rfl
  · have hnone := hlast.resolve_right (by decide)
    rw [armed_elseIf hnone, branchTurn]
    refine .andThen (hexpression hc) (fun h => by omega) (Nat.le_refl _) fun condition c' _ hstands hmoves => ?_
    have hwork := hmoves.work_le
    refine .andThen (hstands.expect hstop (by decide)) id (by omega) fun close c'' _ hstands' hmoves' => ?_
    have hmoved := hmoves.trans hmoves'
    have hlength := hmoved.length_le
    have hwork' := hmoved.work_le
    refine .andThen (hblock (by decide) (by decide) hstands') (fun h => by omega) (by omega)
      fun body d hbody hstands'' hmoves'' => ?_
    have hword := block_word (by decide) hbody
    exact .pure ⟨⟨hword, .inl hnone⟩, body.rest, rfl, hstands'', (hmoved.trans hmoves'').weaken (by decide)⟩
  · have hnone := hlast.resolve_right (by decide)
    rw [armed_otherwise hnone, branchTurn]
    refine .andThen (hc.expect hstop (by decide)) id (Nat.le_refl _) fun close c' _ hstands hmoves => ?_
    have hlength := hmoves.length_le
    have hwork := hmoves.work_le
    refine .andThen (hblock (by decide) (by decide) hstands) (fun h => by omega) (by omega)
      fun body c'' hbody hstands' hmoves' => ?_
    have hword := List.mem_singleton.mp (block_word (by decide) hbody)
    refine .pure ⟨⟨by simp [hword], .inr hword⟩, body.rest, ?_, hstands', (hmoves.trans hmoves').weaken (by decide)⟩
    rw [hword]
  · rw [armed_nothing, branchTurn]
    · refine .finish (hc.expect hstop (by decide)) id (Nat.le_refl _) fun close c' hstands hmoves => ?_
      exact .pure ⟨close.rest, rfl, hstands, hmoves.weaken (by decide)⟩
    all_goals decide

/-- What follows the body of a condition. -/
theorem alternatives_follows {expression : Run Expr} {block : List TokenKind → Run (Body × TokenKind)}
    {word : TokenKind} (hexpression : FollowsExpression last tail limit expression)
    (hblock : FollowsBlock last tail limit block) (hword : word ∈ [.elifWord, .elseWord, .endifWord])
    (hc : Stands tail ts c) :
    Meets (limit < 10 * c.left.length + 10) (c.work + 1) (Gives tail (-1) c)
      (told (Parser.alternative (stop last tail).start word ts)) (alternatives last limit expression block word) c := by
  have hloop := meets_repeatTurns .branches (s := ({}, word)) (branchTurn_ends hstop hexpression hblock)
    limit ⟨hword, .inl rfl⟩ hc (Nat.le_refl _) fun h => by omega
  refine .bind hloop ?_
  rintro arms c' ⟨rest, hm, hstands, hmoves⟩
  exact .pure ⟨rest, hm, hstands, hmoves⟩

theorem assignment_follows (limit : Nat) : FollowsKeyword last tail limit .setWord (assignment last limit) := by
  intro t ts c hk hc
  cases limit with
  | zero => exact .stuck (Nat.succ_pos _)
  | succ limit =>
    rw [assignment, told_assign hk]
    refine .andThen (hc.expect hstop (by decide)) id (Nat.le_refl _) fun name c' _ hstands hmoves => ?_
    have hwork := hmoves.work_le
    refine .andThen (hstands.expect hstop (by decide)) id (by omega) fun sign c'' _ hstands' hmoves' => ?_
    have hmoved := hmoves.trans hmoves'
    have hlength := hmoved.length_le
    have hwork' := hmoved.work_le
    refine .andThen ((follows hstop limit).expression hstands') (fun h => by omega) (by omega)
      fun value d _ hstands'' hmoves'' => ?_
    have hmoved' := hmoved.trans hmoves''
    have hwork'' := hmoved'.work_le
    refine .andThen (hstands''.expect hstop (by decide)) id (by omega) fun close d' _ hclosed hmoves₄ => ?_
    exact .pure ⟨close.rest, rfl, hclosed, (hmoved'.trans hmoves₄).weaken (by decide)⟩

end

/-! ### From one limit to the next -/

/-- Within a limit the runs for bodies and statements do what the parser does. -/
structure FollowsBodies (last : Token) (tail : List Token) (limit : Nat) : Prop where
  nodes : FollowsNodes last tail limit (nodes last limit)
  block : FollowsBlock last tail limit (block last limit)
  statement : FollowsStatement last tail limit (statement last limit)
  branch : FollowsKeyword last tail limit .ifWord (branch last limit)
  forLoop : FollowsKeyword last tail limit .forWord (forLoop last limit)
  macroDef : FollowsKeyword last tail limit .macroWord (macroDef last limit)

namespace FollowsBodies
variable (hstop : (stop last tail).kind = .eof)
  (hexpression : FollowsExpression last tail limit (expression last limit)) (h : FollowsBodies last tail limit)

include hstop hexpression h in
theorem nodes_succ : FollowsNodes last tail (limit + 1) (Tape.nodes last (limit + 1)) := by
  intro ends ts c hends hc
  rw [Tape.nodes]
  have hloop := meets_repeatTurns .nodes (fun _ => nodeTurn_ends hstop hexpression h.statement hends) limit [] trivial hc
    (Nat.le_refl _) fun h => by omega
  exact hloop.weaken (fun h => by omega) (Nat.le_refl _)

include h in
theorem block_succ : FollowsBlock last tail (limit + 1) (Tape.block last (limit + 1)) := by
  intro ends ts c hne hends hc
  rw [Tape.block, told_block hne]
  refine .peek (.loop ((h.nodes hends hc).weaken (fun h => by omega) (Nat.le_refl _)) ?_)
  rintro ⟨nodes, word⟩ c' ⟨rest, hm, hstands, hmoves⟩
  rw [hm]
  cases word with
  | none => exact absurd hm (gathered_ne_none hne)
  | some word =>
    refine .pure ⟨rest, ?_, hstands, hmoves⟩
    rw [← hc.start]
    rfl

include hstop h in
theorem statement_succ : FollowsStatement last tail (limit + 1) (Tape.statement last (limit + 1)) := by
  intro ts c hc
  rw [Tape.statement]
  refine .advance ?_
  cases ts with
  | nil =>
    rw [hc.kind_nil hstop]
    exact .fails (congrArg Except.error (hc.mismatch hstop _).symm) c.turns_le_work (.refl _)
  | cons t ts =>
    have hmoves : Moves 9 c (c.next last) := hc.moves_next
    have hlength := hmoves.length_lt (by decide)
    have hwork := hmoves.work_le
    -- What a run for the keyword gives counts from before the keyword.
    have hafter {run : Run Node} (hrun : Meets (limit < 10 * (c.next last).left.length + 11) (c.next last).work
        (Gives tail 1 (c.next last)) (told (Parser.statement (stop last tail).start t ts)) run (c.next last)) :
        Meets (limit + 1 < 10 * c.left.length + 2) c.work (Gives tail 1 c)
          (told (Parser.statement (stop last tail).start t ts)) run (c.next last) := by
      refine hrun.mono (fun h => by omega) (by omega) ?_
      rintro node c' ⟨rest, hm, hstands, hmoves'⟩
      exact ⟨rest, hm, hstands, (hmoves.trans hmoves').weaken (by decide)⟩
    rw [hc.token_cons, tag]
    split
    case h_1 hk => exact hafter (h.branch hk hc.next)
    case h_2 hk => exact hafter (h.forLoop hk hc.next)
    case h_3 hk => exact hafter (h.macroDef hk hc.next)
    case h_4 hk => exact hafter (assignment_follows hstop limit hk hc.next)
    case h_5 hif hfor hdef hset =>
      rw [told_refused hif hfor hdef hset]
      exact .fails rfl c.turns_le_work (.refl _)

include hstop hexpression h in
theorem branch_succ : FollowsKeyword last tail (limit + 1) .ifWord (Tape.branch last (limit + 1)) := by
  intro t ts c hk hc
  rw [Tape.branch, told_branch hk]
  refine .andThen (hexpression hc) (fun h => by omega) (Nat.le_refl _) fun condition c' _ hstands hmoves => ?_
  have hwork := hmoves.work_le
  refine .andThen (hstands.expect hstop (by decide)) id (by omega) fun close c'' _ hstands' hmoves' => ?_
  have hmoved := hmoves.trans hmoves'
  have hlength := hmoved.length_lt (by decide)
  have hwork' := hmoved.work_le
  refine .andThen (h.block (by decide) (by decide) hstands') (fun h => by omega) (by omega)
    fun body d hbody hstands'' hmoves'' => ?_
  have hmoved' := hmoved.trans hmoves''
  have hlength' := hmoved'.length_lt (by decide)
  have hwork'' := hmoved'.work_le
  refine .andThen (alternatives_follows hstop hexpression h.block (block_word (by decide) hbody) hstands'')
    (fun h => by omega) (by omega) fun rest d' _ hstands''' hmoves''' => ?_
  exact .pure ⟨rest.rest, rfl, hstands''', (hmoved'.trans hmoves''').weaken (by decide)⟩

include hstop h in
/-- A block and the closing of the tag that ends it. -/
theorem closedBlock {short : Prop} {most : Nat} {α γ : Type} {post : Except TemplateError γ → α → Tape → Prop}
    {kind : TokenKind} {f : Body × TokenKind → Token → Run α}
    {g : (body : Parsed (Body × TokenKind) (ts.length + 1)) → Parsed Token body.rest.length → Except TemplateError γ}
    (hc : Stands tail ts c) (hkind : kind ≠ .eof) (hshort : limit < 10 * c.left.length + 3 → short)
    (hmost : c.work + 1 ≤ most)
    (hf : ∀ body close c', Stands tail close.rest c' → Moves 8 c c' →
      Meets short most post (g body close) (f body.value close.value) c') :
    Meets short most post
      (Parser.block (stop last tail).start [kind] ts >>= fun body =>
        Parser.expect (stop last tail).start .stmtClose body.rest >>= fun close => g body close)
      (Tape.block last limit [kind] >>= fun body => expect last .stmtClose >>= fun close => f body close) c := by
  refine .andThen (h.block (List.cons_ne_nil _ _) (by simpa using hkind.symm) hc) hshort hmost
    fun body c' _ hstands hmoves => ?_
  have hwork := hmoves.work_le
  refine .andThen (hstands.expect hstop (by decide)) id (by omega) fun close c'' _ hstands' hmoves' => ?_
  exact hf body close c'' hstands' ((hmoves.trans hmoves').weaken (by decide))

include hstop hexpression h in
theorem forLoop_succ : FollowsKeyword last tail (limit + 1) .forWord (Tape.forLoop last (limit + 1)) := by
  intro t ts c hk hc
  rw [Tape.forLoop, told_loop hk]
  refine .andThen (hc.targets hstop) id (Nat.le_refl _) fun names c' _ hstands hmoves => ?_
  have hwork := hmoves.work_le
  refine .andThen (hstands.expect hstop (by decide)) id (by omega) fun word c'' _ hstands' hmoves' => ?_
  have hmoved := hmoves.trans hmoves'
  have hlength := hmoved.length_lt (by decide)
  have hwork' := hmoved.work_le
  refine .andThen (hexpression hstands') (fun h => by omega) (by omega) fun iterable d _ hstands'' hmoves'' => ?_
  have hmoved' := hmoved.trans hmoves''
  have hwork'' := hmoved'.work_le
  refine .andThen (hstands''.expect hstop (by decide)) id (by omega) fun close d' _ hstands''' hmoves''' => ?_
  have hopened := hmoved'.trans hmoves'''
  have hlength' := hopened.length_lt (by decide)
  have hwork''' := hopened.work_le
  refine h.closedBlock hstop hstands''' (by decide) (fun h => by omega) (by omega) fun body closing e hclosed hmoves₄ => ?_
  exact .pure ⟨closing.rest, rfl, hclosed, (hopened.trans hmoves₄).weaken (by decide)⟩

include hstop h in
theorem macroDef_succ : FollowsKeyword last tail (limit + 1) .macroWord (Tape.macroDef last (limit + 1)) := by
  intro t ts c hk hc
  rw [Tape.macroDef, told_macroDef hk]
  refine .andThen (hc.expect hstop (by decide)) id (Nat.le_refl _) fun name c' _ hstands hmoves => ?_
  have hwork := hmoves.work_le
  refine .andThen (hstands.expect hstop (by decide)) id (by omega) fun paren c'' _ hstands' hmoves' => ?_
  have hmoved := hmoves.trans hmoves'
  have hlength := hmoved.length_lt (by decide)
  have hwork' := hmoved.work_le
  refine .andThen (hstands'.parameters hstop) (fun h => by omega) (by omega) fun given d _ hstands'' hmoves'' => ?_
  have hmoved' := hmoved.trans hmoves''
  have hwork'' := hmoved'.work_le
  refine .andThen (hstands''.expect hstop (by decide)) id (by omega) fun close d' _ hstands''' hmoves''' => ?_
  have hopened := hmoved'.trans hmoves'''
  have hlength' := hopened.length_lt (by decide)
  have hwork''' := hopened.work_le
  refine h.closedBlock hstop hstands''' (by decide) (fun h => by omega) (by omega) fun body closing e hclosed hmoves₄ => ?_
  exact .pure ⟨closing.rest, rfl, hclosed, (hopened.trans hmoves₄).weaken (by decide)⟩

end FollowsBodies

theorem followsBodies (hstop : (stop last tail).kind = .eof) (limit : Nat) : FollowsBodies last tail limit := by
  induction limit with
  | zero =>
    exact ⟨fun _ _ => .stuck (by omega), fun _ _ _ => .stuck (by omega), fun _ => .stuck (by omega),
      fun _ _ => .stuck (by omega), fun _ _ => .stuck (by omega), fun _ _ => .stuck (by omega)⟩
  | succ limit ih =>
    have hexpression : FollowsExpression last tail limit (expression last limit) := (follows hstop limit).expression
    exact ⟨ih.nodes_succ hstop hexpression, ih.block_succ, ih.statement_succ hstop,
      ih.branch_succ hstop hexpression, ih.forLoop_succ hstop hexpression, ih.macroDef_succ hstop⟩

end TemplatedSql.Tape
