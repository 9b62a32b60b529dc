import TemplatedSql.Proofs.Grammar.Statement

/-! # The parser makes progress

On any tokens the parser with a cursor comes to its end within ten calls inside one another and nine turns of loops for
each token, and gives what the parser gives. Whatever succeeds on the way leaves the last token where it is. -/

namespace TemplatedSql.Tape

variable {α : Type} {last : Token} {tail ts : List Token} {c : Tape} {limit most most' : Nat} {gain : Int} {short : Prop}
  {m : Except TemplateError (α × List Token)} {x : Run α}

/-- What a run comes to, unless it reaches the limit. -/
def Outcome.result? : Outcome α → Option (Except TemplateError α)
  | .gives a _ => some (.ok a)
  | .fails e _ => some (.error e)
  | .stuck => none

/-- The turns that were made. -/
def Outcome.turns : Outcome α → List Turn
  | .gives _ c | .fails _ c => c.turns
  | .stuck => []

/-- Wherever the run succeeds, it takes at least so many tokens. They are no end tokens, and the cursor is behind them.
Wherever it ends, the turns that were remembered before still are. -/
structure Run.Takes (least : Nat) (x : Run α) : Prop where
  read : ∀ {c c' : Tape} {a : α}, x c = .gives a c' →
    ∃ read : List Token, c.left = read ++ c'.left ∧ c'.taken = read.reverse ++ c.taken ∧
      (∀ t ∈ read, t.kind ≠ .eof) ∧ least ≤ read.length
  remembered : ∀ {c c' : Tape}, (x c).tape? = some c' → c.turns <:+ c'.turns

/-- What the parts of the parser take where they succeed. Only a default that is not there and what stands between tags may
be empty. -/
structure Progress (last : Token) (limit : Nat) : Prop where
  expression : (expression last limit).Takes 1
  level : ∀ l, (level last limit l).Takes 1
  arguments : (arguments last limit).Takes 1
  primary : (primary last limit).Takes 1
  literal : (literal last).Takes 1
  default? : (default? last).Takes 0
  parameters : (parameters last limit).Takes 1
  targets : (targets last).Takes 1
  assignment : ∀ position, (assignment last limit position).Takes 1
  nodes : ∀ ends, .eof ∉ ends → (nodes last limit ends).Takes 0
  block : ∀ ends, ends ≠ [] → .eof ∉ ends → (block last limit ends).Takes 0
  statement : (statement last limit).Takes 1
  branch : ∀ position, (branch last limit position).Takes 1
  forLoop : ∀ position, (forLoop last limit position).Takes 1
  macroDef : ∀ position, (macroDef last limit position).Takes 1
  body : (body last limit).Takes 0

/-! ### Where the cursor stands -/

theorem kind_stop (hlast : last.kind = .eof) (left : List Token) :
    (stop last (left.dropWhile (·.kind != .eof))).kind = .eof := by
  have h := List.head?_dropWhile_not (·.kind != .eof) left
  rw [stop]
  cases hhead : (left.dropWhile (·.kind != .eof)).head? with
  | none => exact hlast
  | some t =>
    rw [hhead] at h
    simpa using h

theorem stands_takeWhile (c : Tape) :
    Stands (c.left.dropWhile (·.kind != .eof)) (c.left.takeWhile (·.kind != .eof)) c where
  left := List.takeWhile_append_dropWhile.symm
  inner t ht := by simpa using List.mem_takeWhile_imp ht

/-- A run that does what a step of the parser does takes the tokens that the step reads. -/
theorem takes_of_meets {least : Nat} (hlast : last.kind = .eof) (hleast : least = 0 ∨ least = 1 ∧ 0 < gain)
    (h : ∀ {tail ts c}, (stop last tail).kind = .eof → Stands tail ts c →
      ∃ short most m, Meets short most (Gives tail gain c) m x c) : x.Takes least where
  read {c c' a} hx := by
    have hc := stands_takeWhile c
    obtain ⟨short, most, m, hmeets⟩ := h (kind_stop hlast c.left) hc
    unfold Meets at hmeets
    rw [hx] at hmeets
    obtain ⟨⟨rest, -, hstands, hmoves⟩, -⟩ := hmeets
    obtain ⟨read, hleft, htaken⟩ := hmoves.takes
    have hread : c.left.takeWhile (·.kind != .eof) = read ++ rest := by
      rw [hc.left, hstands.left, ← List.append_assoc] at hleft
      exact List.append_cancel_right hleft
    refine ⟨read, hleft, htaken, fun t ht => hc.inner t (hread ▸ List.mem_append_left rest ht), ?_⟩
    obtain rfl | ⟨rfl, hgain⟩ := hleast
    · exact Nat.zero_le _
    · have hless := hmoves.length_lt hgain
      rw [hleft, List.length_append] at hless
      omega
  remembered {c c'} hx := by
    obtain ⟨short, most, m, hmeets⟩ := h (kind_stop hlast c.left) (stands_takeWhile c)
    exact hmeets.suffix hx

/-- The body of a template, which is all the nodes there are. -/
theorem body_follows (hstop : (stop last tail).kind = .eof) (limit : Nat) (hc : Stands tail ts c) :
    Meets (limit < 10 * c.left.length + 2) (c.work + 1) (Gives tail (-1) c)
      ((Parser.nodes (stop last tail).start [] ts).map fun p =>
        (⟨Parser.place (stop last tail).start ts, p.value.1⟩, p.rest))
      (body last limit) c := by
  have hm : ((Parser.nodes (stop last tail).start [] ts).map fun p =>
        ((⟨Parser.place (stop last tail).start ts, p.value.1⟩, p.rest) : Body × List Token)) =
      (gathered [] [] (Parser.nodes (stop last tail).start [] ts)).map fun p =>
        (⟨(c.token last).start, p.1.1⟩, p.2) := by
    rw [gathered, map_map, hc.start]
    rfl
  rw [body, hm]
  refine .peek (.loop ((followsBodies hstop limit).nodes (List.not_mem_nil) hc) ?_)
  rintro nodes c' ⟨rest, hm, hstands, hmoves⟩
  rw [hm]
  exact .pure ⟨rest, rfl, hstands, hmoves⟩

theorem progress (hlast : last.kind = .eof) (limit : Nat) : Progress last limit where
  expression := takes_of_meets hlast (.inr ⟨rfl, by decide⟩) fun hstop hc =>
    ⟨_, _, _, (follows hstop limit).expression hc⟩
  level l := takes_of_meets hlast (.inr ⟨rfl, by have := rank_le l; omega⟩) fun hstop hc =>
    ⟨_, _, _, (follows hstop limit).level l hc⟩
  arguments := takes_of_meets hlast (.inr ⟨rfl, by decide⟩) fun hstop hc =>
    ⟨_, _, _, (follows hstop limit).arguments hc⟩
  primary := takes_of_meets hlast (.inr ⟨rfl, by decide⟩) fun hstop hc =>
    ⟨_, _, _, (follows hstop limit).primary hc⟩
  literal := takes_of_meets hlast (.inr ⟨rfl, by decide⟩) fun hstop hc => ⟨True, _, _, hc.literal hstop⟩
  default? := takes_of_meets hlast (.inl rfl) fun hstop hc => ⟨True, _, _, hc.default? hstop⟩
  parameters := takes_of_meets hlast (.inr ⟨rfl, by decide⟩) fun hstop hc => ⟨_, _, _, hc.parameters hstop⟩
  targets := takes_of_meets hlast (.inr ⟨rfl, by decide⟩) fun hstop hc => ⟨True, _, _, hc.targets hstop⟩
  assignment position := takes_of_meets hlast (.inr ⟨rfl, by decide⟩) fun hstop hc =>
    ⟨_, _, _, assignment_follows hstop limit (t := ⟨.setWord, "", position⟩) rfl hc⟩
  nodes ends hends := takes_of_meets hlast (.inl rfl) fun hstop hc =>
    ⟨_, _, _, (followsBodies hstop limit).nodes hends hc⟩
  block ends hne hends := takes_of_meets hlast (.inl rfl) fun hstop hc =>
    ⟨_, _, _, (followsBodies hstop limit).block hne hends hc⟩
  statement := takes_of_meets hlast (.inr ⟨rfl, by decide⟩) fun hstop hc =>
    ⟨_, _, _, (followsBodies hstop limit).statement hc⟩
  branch position := takes_of_meets hlast (.inr ⟨rfl, by decide⟩) fun hstop hc =>
    ⟨_, _, _, (followsBodies hstop limit).branch (t := ⟨.ifWord, "", position⟩) rfl hc⟩
  forLoop position := takes_of_meets hlast (.inr ⟨rfl, by decide⟩) fun hstop hc =>
    ⟨_, _, _, (followsBodies hstop limit).forLoop (t := ⟨.forWord, "", position⟩) rfl hc⟩
  macroDef position := takes_of_meets hlast (.inr ⟨rfl, by decide⟩) fun hstop hc =>
    ⟨_, _, _, (followsBodies hstop limit).macroDef (t := ⟨.macroWord, "", position⟩) rfl hc⟩
  body := takes_of_meets hlast (.inl rfl) fun hstop hc => ⟨_, _, _, body_follows hstop limit hc⟩

/-! ### What is remembered -/

/-- The loops of the parser, as the parts of it run them within a limit. Each of them remembers its turns. -/
structure Remembered (last : Token) (limit : Nat) : Prop where
  operators : ∀ l left c,
    Remembers (.operators l) (operatorTurn last l (level last limit l.next)) limit left c
  postfixes : ∀ target c,
    Remembers .postfixes (postfixTurn last (expression last limit) (arguments last limit)) limit target c
  arguments : ∀ c, Remembers .arguments (argumentTurn last (expression last limit)) limit [] c
  items : ∀ c, Remembers .items (itemTurn last (expression last limit)) limit [] c
  parameters : ∀ c, Remembers .parameters (parameterTurn last) limit [] c
  nodes : ∀ ends, .eof ∉ ends → ∀ c,
    Remembers .nodes (nodeTurn last ends (expression last limit) (statement last limit)) limit [] c
  branches : ∀ word ∈ [TokenKind.elifWord, .elseWord, .endifWord], ∀ c,
    Remembers .branches (branchTurn last (expression last limit) (block last limit)) limit ({}, word) c

theorem remembered (hlast : last.kind = .eof) (limit : Nat) : Remembered last limit where
  operators l left c :=
    have hstop := kind_stop hlast c.left
    remembers_repeatTurns _ (fun _ => operatorTurn_ends hstop ((follows hstop limit).level l.next)) limit left trivial
      (stands_takeWhile c) (Nat.le_refl _)
  postfixes target c :=
    have hstop := kind_stop hlast c.left
    have h := follows hstop limit
    remembers_repeatTurns (n := c.left.length) _
      (fun _ hc hn => postfixTurn_ends hstop h.expression h.arguments hc (Nat.le_succ_of_le hn)) limit target trivial
      (stands_takeWhile c) (Nat.le_refl _)
  arguments c :=
    have hstop := kind_stop hlast c.left
    remembers_repeatTurns _ (fun _ => argumentTurn_ends hstop (follows hstop limit).expression) limit [] trivial
      (stands_takeWhile c) (Nat.le_refl _)
  items c :=
    have hstop := kind_stop hlast c.left
    remembers_repeatTurns _ (fun _ => itemTurn_ends hstop (follows hstop limit).expression) limit [] trivial
      (stands_takeWhile c) (Nat.le_refl _)
  parameters c :=
    have hstop := kind_stop hlast c.left
    have hturn {given c' ts} (hc : Stands _ ts c') : Meets True c'.work _ _ (parameterTurn last given) c' :=
      parameterTurn_ends hstop hc
    remembers_repeatTurns _ (fun _ hc _ => hturn hc) limit [] trivial (stands_takeWhile c) (Nat.le_refl _)
  nodes _ hends c :=
    have hstop := kind_stop hlast c.left
    remembers_repeatTurns _ (fun _ => nodeTurn_ends hstop (follows hstop limit).expression
      (followsBodies hstop limit).statement hends) limit [] trivial (stands_takeWhile c) (Nat.le_refl _)
  branches word hword c :=
    have hstop := kind_stop hlast c.left
    remembers_repeatTurns _ (branchTurn_ends hstop (follows hstop limit).expression (followsBodies hstop limit).block)
      limit ({}, word) ⟨hword, .inl rfl⟩ (stands_takeWhile c) (Nat.le_refl _)

/-! ### All lists of tokens -/

theorem getLast?_terminated (tokens : List Token) :
    ∃ last : Token, (Token.terminated tokens).getLast? = some last ∧ last.kind = .eof := by
  rw [Token.terminated]
  split
  · rename_i h
    exact Option.map_eq_some_iff.mp h
  · exact ⟨_, List.getLast?_concat, rfl⟩

theorem kind_final (tokens : List Token) : (final tokens).kind = .eof := by
  obtain ⟨last, hlast, hkind⟩ := getLast?_terminated tokens
  rw [final, hlast]
  exact hkind

theorem dropLast_terminated (tokens : List Token) :
    (Token.terminated tokens).dropLast ++ [final tokens] = Token.terminated tokens := by
  obtain ⟨last, hlast, -⟩ := getLast?_terminated tokens
  rw [final, hlast]
  exact List.dropLast_append_getLast? last hlast

theorem length_dropLast_terminated (tokens : List Token) : (Token.terminated tokens).dropLast.length ≤ tokens.length := by
  rw [List.length_dropLast, Token.terminated]
  split <;> simp

theorem takeWhile_concat {p : Token → Bool} (hlast : p last = false) (left : List Token) :
    (left ++ [last]).takeWhile p = left.takeWhile p := by
  induction left with
  | nil => simp [hlast]
  | cons t ts ih =>
    rw [List.cons_append, List.takeWhile_cons, List.takeWhile_cons, ih]

/-- An end token behind tokens that do not end in one makes no difference. -/
theorem ofTokens_terminated (tokens : List Token) : Body.ofTokens (Token.terminated tokens) = Body.ofTokens tokens := by
  rw [Token.terminated]
  split
  · rfl
  · rw [Body.ofTokens, Body.ofTokens, takeWhile_concat rfl, List.find?_append]
    cases tokens.find? (·.kind == .eof) with
    | some t => rfl
    | none => cases tokens.getLast? <;> rfl

theorem ofTokens_concat (hlast : last.kind = .eof) (left : List Token) :
    Body.ofTokens (left ++ [last]) =
      let stop := (stop last (left.dropWhile (·.kind != .eof))).start
      let front := left.takeWhile (·.kind != .eof)
      ((Parser.nodes stop [] front).map fun p => (⟨Parser.place stop front, p.value.1⟩, p.rest)).map Prod.fst := by
  have hfind : (left ++ [last]).find? (·.kind == .eof) = some (stop last (left.dropWhile (·.kind != .eof))) := by
    rw [List.find?_append, List.find?_eq_head?_dropWhile_not, stop]
    simp only [bne]
    cases (left.dropWhile fun t => !(t.kind == .eof)).head? <;> simp [hlast]
  rw [Body.ofTokens, hfind, takeWhile_concat (by simp [hlast]), map_map, map_eq_bind]
  rfl

/-- How a run ends that begins without turns and does what a step of the parser does, where the limit is high enough. -/
theorem Meets.ends (h : Meets short most' (Gives tail gain c) m x c) (hc : c.turns = []) (hshort : ¬short)
    (hmost : most' ≤ most) (hgain : (c.work : Int) - gain ≤ most) :
    (x c).result? = some (m.map Prod.fst) ∧ (x c).turns.length ≤ most ∧ ∀ turn ∈ (x c).turns, turn.Advances := by
  have hadvances {d : Tape} (hsince : Since c.turns d) : ∀ turn ∈ d.turns, turn.Advances := by
    obtain ⟨new, hturns, hnew⟩ := hsince
    rwa [hturns, hc, List.append_nil]
  unfold Meets at h
  revert h
  cases x c with
  | gives a c' =>
    rintro ⟨⟨rest, rfl, -, hmoves⟩, hsince⟩
    have hwork := hmoves.work_le
    exact ⟨rfl, Nat.le_trans c'.turns_le_work (by omega), hadvances hsince⟩
  | fails e c' =>
    rintro (_ | ⟨rfl, hturns, hsince⟩)
    exact ⟨rfl, Nat.le_trans hturns hmost, hadvances hsince⟩
  | stuck =>
    rintro (_ | _ | h)
    exact absurd h hshort

/-- On all tokens, whatever they are, the parser comes to its end within a limit of calls inside one another and a number of
turns that are linear in the tokens; each turn leaves its loop or moved the cursor. Wherever a part of the parser succeeds,
it took tokens from the cursor on, no end token among them, and if it is an expression of any level it took some. The turns
that are counted are all there are: each loop remembers every turn that it makes, and no part forgets one. -/
theorem parser_makes_progress (tokens : List Token) :
    (∀ spare, (parse (10 * tokens.length + 2 + spare) tokens).result? = some (Body.ofTokens tokens) ∧
      (parse (10 * tokens.length + 2 + spare) tokens).turns.length ≤ 9 * tokens.length + 1 ∧
      ∀ turn ∈ (parse (10 * tokens.length + 2 + spare) tokens).turns, turn.Advances) ∧
    ∀ limit, Progress (final tokens) limit ∧ Remembered (final tokens) limit := by
  refine ⟨fun spare => ?_, fun limit => ⟨progress (kind_final tokens) limit, remembered (kind_final tokens) limit⟩⟩
  have hlength := length_dropLast_terminated tokens
  have hc : Stands _ _ ({ left := (Token.terminated tokens).dropLast } : Tape) := stands_takeWhile _
  have hbody := body_follows (kind_stop (kind_final tokens) _) (10 * tokens.length + 2 + spare) hc
  rw [← ofTokens_terminated, ← dropLast_terminated, ofTokens_concat (kind_final tokens), parse]
  refine hbody.ends rfl ?_ ?_ ?_ <;> simp only [work, List.length_nil] <;> omega

-- The limit counts: behind one opening token the calls go down through every level to a primary expression.
example : (parse 10 [⟨.exprOpen, "", ⟨1, 1⟩⟩]).result?.isNone ∧ (parse 11 [⟨.exprOpen, "", ⟨1, 1⟩⟩]).result?.isSome := by
  decide

end TemplatedSql.Tape
