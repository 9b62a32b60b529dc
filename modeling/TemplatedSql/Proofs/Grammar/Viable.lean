import TemplatedSql.Proofs.Grammar.Accept
import TemplatedSql.Proofs.Grammar.Fails

/-! # What stands before an error is viable

The parser reports an error no later than at the first token that nothing can come from. The tokens before it are those
of the start of a derivation, since each step that failed could have read something, and so could those after it. The
recursion is that of the parser, step by step. -/

namespace TemplatedSql.Grammar

open TemplatedSql.Parser

variable {stop : Token} {e : TemplateError}

/-- Where so few tokens are no expression, what stands before the error starts one. -/
def LevelBlames (stop : Token) (n : Nat) : Prop :=
  ∀ {l : Level} {ts : List Token} {e : TemplateError}, ts.length < n → Fails (level stop.start l ts) e →
    Blames stop ts e (Begins (@Expression.tokens l))

section
variable {n : Nat} (hstop : stop.kind = .eof) (hlevel : LevelBlames stop n)
include hstop hlevel

omit hstop in
theorem chain_blames {l : Level} {ts : List Token} {left : Expr} (hn : ts.length ≤ n)
    (h : Fails (chain stop.start l left ts) e) : Blames stop ts e (Begins (@Chain.tokens l)) := by
  induction hk : ts.length using Nat.strongRecOn generalizing ts left with
  | _ k ih =>
    rw [chain] at h
    cases ho : operator? l ts with
    | none =>
      rw [ho] at h
      exact (fails_ok h).elim
    | some operator =>
      rw [ho] at h
      have := operator.shorter
      obtain ⟨o, hts, -⟩ := exists_operator ho
      simp only [fails_bind, fails_bind_ok, exists_prop] at h
      rw [hts]
      rcases h with hright | ⟨right, us, hright, hchain⟩
      · exact (hlevel (by omega) hright).within _ (fun d => .cons o d .nil) fun d => by simp [Chain.tokens]
      · have := hright.shorter
        obtain ⟨d, hrest, -⟩ := level_sound hright
        rw [hrest, ← List.append_assoc]
        exact (ih us.length (by omega) (by omega) hchain rfl).within _ (.cons o d) fun c => by simp [Chain.tokens]

theorem callArguments_blames {seen : List String} {ts : List Token} (hn : ts.length < n)
    (h : Fails (callArguments stop.start seen ts) e) : Blames stop ts e (Begins (@Arguments.tokens seen)) := by
  induction hk : ts.length using Nat.strongRecOn generalizing seen ts with
  | _ k ih =>
    have hmore : ∀ {seen : List String} {us : List Token}, us.length < k → Fails (moreArguments stop.start seen us) e →
        Blames stop us e (Begins (@MoreArguments.tokens seen)) := by
      intro seen us hus hmore
      cases us with
      | nil =>
        rw [moreArguments, fails_error] at hmore
        exact hmore ▸ blames_mismatch hstop [] begins_nil
      | cons t us =>
        rw [List.length_cons] at hus
        rw [moreArguments] at hmore
        split at hmore
        · rename_i hcomma
          rw [fails_bind_ok] at hmore
          exact (ih us.length (by omega) (by omega) hmore rfl).within [t] (.comma ⟨t, hcomma⟩)
            fun d => by simp [MoreArguments.tokens]
        · rw [fails_bind_ok] at hmore
          exact hmore.expect hstop [] begins_nil
    cases ts with
    | nil =>
      rw [callArguments, fails_error] at h
      exact h ▸ blames_mismatch hstop [] begins_nil
    | cons t ts =>
      rw [callArguments] at h
      split at h
      · exact (fails_ok h).elim
      · cases hname : argumentName? (t :: ts) with
        | some name =>
          rw [hname] at h
          have := name.shorter
          obtain ⟨sign, hts, hidentifier, hassign⟩ := argumentName?_eq_some hname
          have hfront : t :: ts = [name.value, sign] ++ name.rest := hts
          dsimp only at h
          split at h
          · -- The name that comes twice is the token at fault.
            exact ⟨[], name.value, sign :: (name.rest ++ [stop]), congrArg (· ++ [stop]) hts,
              ⟨_, (fails_error.mp h).symm⟩, begins_nil⟩
          · rename_i hseen
            have hname : name.value.text ∉ seen := by simpa using hseen
            simp only [fails_bind, fails_bind_ok, exists_prop] at h
            rw [hfront]
            rcases h with hvalue | ⟨value, us, hvalue, hrest⟩
            · exact (hlevel (by omega) hvalue).within _
                (fun d => .named ⟨name.value, hidentifier⟩ ⟨sign, hassign⟩ hname d default)
                fun d => by simp [Arguments.tokens]
            · have := hvalue.shorter
              obtain ⟨d, hd, -⟩ := level_sound hvalue
              rw [hd, ← List.append_assoc]
              exact (hmore (by omega) hrest).within _ (.named ⟨name.value, hidentifier⟩ ⟨sign, hassign⟩ hname d)
                fun c => by simp [Arguments.tokens]
        | none =>
          rw [hname] at h
          simp only [fails_bind, fails_bind_ok, exists_prop] at h
          rcases h with hvalue | ⟨value, us, hvalue, hrest⟩
          · exact (hlevel hn hvalue).within [] (fun d => .positional d default) fun d => by simp [Arguments.tokens]
          · have := hvalue.shorter
            obtain ⟨d, hd, -⟩ := level_sound hvalue
            rw [hd]
            exact (hmore (by omega) hrest).within _ (.positional d) fun c => by simp [Arguments.tokens]

theorem listItems_blames {ts : List Token} (hn : ts.length < n) (h : Fails (listItems stop.start ts) e) :
    Blames stop ts e (Begins Items.tokens) := by
  induction hk : ts.length using Nat.strongRecOn generalizing ts with
  | _ k ih =>
    have hmore : ∀ {us : List Token}, us.length < k → Fails (moreItems stop.start us) e →
        Blames stop us e (Begins MoreItems.tokens) := by
      intro us hus hmore
      cases us with
      | nil =>
        rw [moreItems, fails_error] at hmore
        exact hmore ▸ blames_mismatch hstop [] begins_nil
      | cons t us =>
        rw [List.length_cons] at hus
        rw [moreItems] at hmore
        split at hmore
        · rename_i hcomma
          rw [fails_bind_ok] at hmore
          exact (ih us.length (by omega) (by omega) hmore rfl).within [t] (.comma ⟨t, hcomma⟩)
            fun d => by simp [MoreItems.tokens]
        · rw [fails_bind_ok] at hmore
          exact hmore.expect hstop [] begins_nil
    cases ts with
    | nil =>
      rw [listItems, fails_error] at h
      exact h ▸ blames_mismatch hstop [] begins_nil
    | cons t ts =>
      rw [listItems] at h
      split at h
      · exact (fails_ok h).elim
      · simp only [fails_bind, fails_bind_ok, exists_prop] at h
        rcases h with hvalue | ⟨value, us, hvalue, hrest⟩
        · exact (hlevel hn hvalue).within [] (fun d => .item d default) fun d => by simp [Items.tokens]
        · have := hvalue.shorter
          obtain ⟨d, hd, -⟩ := level_sound hvalue
          rw [hd]
          exact (hmore (by omega) hrest).within _ (.item d) fun c => by simp [Items.tokens]

theorem postfixes_blames {ts : List Token} {target : Expr} (hn : ts.length ≤ n)
    (h : Fails (postfixes stop.start target ts) e) : Blames stop ts e (Begins Postfixes.tokens) := by
  induction hk : ts.length using Nat.strongRecOn generalizing ts target with
  | _ k ih =>
    cases ts with
    | nil =>
      rw [postfixes] at h
      exact (fails_ok h).elim
    | cons t ts =>
      rw [postfixes] at h
      rw [List.length_cons] at hn hk
      split at h
      · rename_i hparen
        simp only [fails_bind, fails_bind_ok, exists_prop] at h
        rcases h with harguments | ⟨arguments, us, harguments, hrest⟩
        · exact (callArguments_blames hstop hlevel (by omega) harguments).within [t]
            (fun d => .call ⟨t, hparen⟩ d .nil) fun d => by simp [Postfixes.tokens]
        · have := harguments.shorter
          obtain ⟨d, rfl, -⟩ := callArguments_sound (levelSound _) (Nat.le_refl _) harguments
          exact (ih us.length (by omega) (by omega) hrest rfl).within (t :: d.tokens) (.call ⟨t, hparen⟩ d)
            fun c => by simp [Postfixes.tokens]
      · rename_i hbracket
        simp only [fails_bind, fails_bind_ok, exists_prop, reads_expect] at h
        rcases h with hindex | ⟨index, us, hindex, hclose | ⟨close, vs, ⟨rfl, hclose⟩, hrest⟩⟩
        · exact (hlevel (by omega) hindex).within [t] (fun d => .index ⟨t, hbracket⟩ d default .nil)
            fun d => by simp [Postfixes.tokens]
        · obtain ⟨d, rfl, -⟩ := level_sound hindex
          exact hclose.expect hstop (t :: d.tokens)
            ⟨.index ⟨t, hbracket⟩ d default .nil, by simp [Postfixes.tokens]⟩
        · have := hindex.shorter
          rw [List.length_cons] at this
          obtain ⟨d, rfl, -⟩ := level_sound hindex
          have hall : Blames stop (t :: (d.tokens ++ [close]) ++ vs) e (Begins Postfixes.tokens) :=
            (ih vs.length (by omega) (by omega) hrest rfl).within _ (.index ⟨t, hbracket⟩ d ⟨close, hclose⟩)
              fun c => by simp [Postfixes.tokens]
          simpa using hall
      · rename_i hdot
        simp only [fails_bind, fails_bind_ok, exists_prop, reads_expect] at h
        rcases h with hname | ⟨name, us, ⟨rfl, hname⟩, hrest⟩
        · exact hname.expect hstop [t] ⟨.member ⟨t, hdot⟩ default .nil, by simp [Postfixes.tokens]⟩
        · rw [List.length_cons] at hn hk
          exact (ih us.length (by omega) (by omega) hrest rfl).within [t, name] (.member ⟨t, hdot⟩ ⟨name, hname⟩)
            fun c => by simp [Postfixes.tokens]
      · exact (fails_ok h).elim

theorem primary_blames {ts : List Token} (hn : ts.length ≤ n) (h : Fails (primary stop.start ts) e) :
    Blames stop ts e (Begins Primary.tokens) := by
  cases ts with
  | nil =>
    rw [primary, fails_error] at h
    exact h ▸ blames_mismatch hstop [] begins_nil
  | cons t ts =>
    rw [primary] at h
    rw [List.length_cons] at hn
    split at h
    · rw [fails_bind_ok] at h
      exact h.readNumber [] begins_nil
    · exact (fails_ok h).elim
    · exact (fails_ok h).elim
    · exact (fails_ok h).elim
    · exact (fails_ok h).elim
    · rename_i hparen
      simp only [fails_bind, fails_bind_ok, exists_prop] at h
      rcases h with hinner | ⟨inner, us, hinner, hclose⟩
      · exact (hlevel (by omega) hinner).within [t] (fun d => .paren ⟨t, hparen⟩ d default)
          fun d => by simp [Primary.tokens]
      · obtain ⟨d, rfl, -⟩ := level_sound hinner
        exact hclose.expect hstop (t :: d.tokens) ⟨.paren ⟨t, hparen⟩ d default, by simp [Primary.tokens]⟩
    · rename_i hbracket
      rw [fails_bind_ok] at h
      exact (listItems_blames hstop hlevel (by omega) h).within [t] (.list ⟨t, hbracket⟩)
        fun d => by simp [Primary.tokens]
    · rw [fails_error] at h
      exact h ▸ blames_mismatch hstop [] begins_nil

/-- From fewer tokens to one more: a prefix operator comes in front of an expression of the same level; anything else
    is looked for on the tighter levels, and among the primary expressions in the end. -/
theorem levelBlames_succ : LevelBlames stop (n + 1) := by
  intro l ts e hn h
  induction hk : l.rank using Nat.strongRecOn generalizing l ts e with
  | _ k ih =>
    have hoperation {ts : List Token} (hn : ts.length < n + 1) (h : Fails (operation stop.start l ts) e) :
        Blames stop ts e (Begins (@Expression.tokens l)) := by
      rw [operation] at h
      split at h
      · rename_i hl
        subst hl
        simp only [fails_bind, fails_bind_ok, exists_prop] at h
        rcases h with htarget | ⟨target, us, htarget, hpostfixes⟩
        · exact (primary_blames hstop hlevel (Nat.le_of_lt_succ hn) htarget).within [] (fun d => .applied d .nil)
            fun d => by simp [Expression.tokens]
        · have := htarget.shorter
          obtain ⟨d, rfl, -⟩ := primary_sound (levelSound _) (Nat.le_succ _) htarget
          exact (postfixes_blames hstop hlevel (by omega) hpostfixes).within _ (.applied d)
            fun c => by simp [Expression.tokens]
      · rename_i hl
        simp only [fails_bind, fails_bind_ok, exists_prop] at h
        rcases h with hleft | ⟨left, us, hleft, hchain⟩
        · exact (ih _ (hk ▸ Level.rank_next_lt hl) hn hleft rfl).within [] (fun d => .chain hl d .nil)
            fun d => by simp [Expression.tokens]
        · have := hleft.shorter
          obtain ⟨d, rfl, -⟩ := level_sound hleft
          exact (chain_blames hlevel (by omega) hchain).within _ (.chain hl d) fun c => by simp [Expression.tokens]
    cases ts with
    | nil =>
      rw [level] at h
      exact hoperation hn h
    | cons t ts =>
      rw [level] at h
      cases hsign : l.sign? t.kind with
      | none =>
        rw [hsign] at h
        exact hoperation hn h
      | some sign =>
        rw [hsign] at h
        rw [List.length_cons] at hn
        cases sign with
        | apply op =>
          rw [fails_bind_ok] at h
          have hinner := hlevel (by omega) h
          rcases sign?_eq_apply hsign with ⟨rfl, hkind, -⟩ | ⟨rfl, hkind, -⟩
          · exact hinner.within [t] (.not ⟨t, hkind⟩) fun d => by simp [Expression.tokens]
          · exact hinner.within [t] (.minus ⟨t, hkind⟩) fun d => by simp [Expression.tokens]
        | keep =>
          rw [fails_bind_ok] at h
          obtain ⟨rfl, hkind⟩ := sign?_eq_keep hsign
          exact (hlevel (by omega) h).within [t] (.plus ⟨t, hkind⟩) fun d => by simp [Expression.tokens]

end

section
variable (hstop : stop.kind = .eof)
include hstop

theorem levelBlames (n : Nat) : LevelBlames stop n := by
  induction n with
  | zero =>
    intro l ts e hn
    exact absurd hn (Nat.not_lt_zero _)
  | succ n ih => exact levelBlames_succ hstop ih

/-- What stands before an error in an expression starts one. -/
theorem level_blames {l : Level} {ts : List Token} (h : Fails (level stop.start l ts) e) :
    Blames stop ts e (Begins (@Expression.tokens l)) :=
  levelBlames hstop _ (Nat.lt_succ_self _) h

/-- An expression and the closing of its tag. -/
def closedTokens (d : Expression .or × Word .stmtClose) : List Token :=
  d.1.tokens ++ [d.2.val]

theorem closedExpression_blames {ts : List Token} (h : Fails (closedExpression stop.start ts) e) :
    Blames stop ts e (Begins closedTokens) := by
  rw [closedExpression] at h
  simp only [fails_bind, fails_bind_ok, exists_prop] at h
  rcases h with hexpr | ⟨expr, us, hexpr, hclose⟩
  · exact (level_blames hstop hexpr).within [] (fun d => (d, default)) fun d => by simp [closedTokens]
  · obtain ⟨d, rfl, -⟩ := level_sound hexpr
    exact hclose.expect hstop _ ⟨(d, default), by simp [closedTokens]⟩

/-! ### Parameters and loop names -/

theorem literal_blames {ts : List Token} (h : Fails (literal stop.start ts) e) :
    Blames stop ts e (Begins Default.tokens) := by
  cases ts with
  | nil => exact fails_error.mp h ▸ blames_mismatch hstop [] begins_nil
  | cons t ts =>
    rw [literal] at h
    split at h
    · rename_i hminus
      rw [fails_bind] at h
      rcases h with hnumber | ⟨number, us, hnumber, hvalue⟩
      · exact hnumber.expect hstop [t] ⟨.negative ⟨t, hminus⟩ default, by simp [Default.tokens]⟩
      · obtain ⟨rfl, -⟩ := reads_expect.mp hnumber
        rw [fails_bind_ok] at hvalue
        exact hvalue.readNumber [t] ⟨.negative ⟨t, hminus⟩ default, by simp [Default.tokens]⟩
    · rw [fails_bind_ok] at h
      exact h.readNumber [] begins_nil
    · exact (fails_ok h).elim
    · exact (fails_ok h).elim
    · exact (fails_ok h).elim
    · exact fails_error.mp h ▸ blames_mismatch hstop [] begins_nil

theorem default?_blames {ts : List Token} (h : Fails (default? stop.start ts) e) :
    Blames stop ts e (Begins DefaultClause.tokens) := by
  cases ts with
  | nil => exact (fails_ok h).elim
  | cons t ts =>
    by_cases hsign : t.kind = .assign
    · simp only [default?, accept?, hsign, if_true, fails_bind_ok] at h
      exact (literal_blames hstop h).within [t] (.default ⟨t, hsign⟩) fun d => by simp [DefaultClause.tokens]
    · simp only [default?, accept?, hsign, if_false] at h
      exact (fails_ok h).elim

theorem parameters_blames {seen : List String} {ts : List Token} (h : Fails (parameters stop.start seen ts) e) :
    Blames stop ts e (Begins (@Parameters.tokens seen)) := by
  induction hk : ts.length using Nat.strongRecOn generalizing seen ts with
  | _ k ih =>
    cases ts with
    | nil =>
      rw [parameters, fails_error] at h
      exact h ▸ blames_mismatch hstop [] begins_nil
    | cons t ts =>
      rw [parameters] at h
      split at h
      · exact (fails_ok h).elim
      · split at h
        · rw [fails_error] at h
          exact h ▸ blames_mismatch hstop [] begins_nil
        · rename_i hkind
          have hkind : t.kind = .identifier := not_not.mp hkind
          split at h
          · -- The name that comes twice is the token at fault.
            exact ⟨[], t, ts ++ [stop], rfl, ⟨_, (fails_error.mp h).symm⟩, begins_nil⟩
          · rename_i hseen
            have hname : t.text ∉ seen := by simpa using hseen
            rw [fails_bind] at h
            rcases h with hdefault | ⟨value, us, hdefault, hrest⟩
            · exact (default?_blames hstop hdefault).within [t] (fun d => .last ⟨t, hkind⟩ hname d default)
                fun d => by simp [Parameters.tokens]
            · have := hdefault.shorter
              obtain ⟨d, rfl, -⟩ := default?_sound hdefault
              cases us with
              | nil =>
                simp only [accept?, fails_bind_ok] at hrest
                exact hrest.expect hstop (t :: d.tokens)
                  ⟨.last ⟨t, hkind⟩ hname d default, by simp [Parameters.tokens]⟩
              | cons u us =>
                by_cases hcomma : u.kind = .comma
                · simp only [accept?, hcomma, if_true, fails_bind_ok] at hrest
                  have hall : Blames stop (t :: (d.tokens ++ [u]) ++ us) e (Begins Parameters.tokens) :=
                    (ih us.length (by simp at hk; omega) hrest rfl).within _ (.cons ⟨t, hkind⟩ hname d ⟨u, hcomma⟩)
                      fun c => by simp [Parameters.tokens]
                  simpa using hall
                · simp only [accept?, hcomma, if_false, fails_bind_ok] at hrest
                  exact hrest.expect hstop (t :: d.tokens)
                    ⟨.last ⟨t, hkind⟩ hname d default, by simp [Parameters.tokens]⟩

theorem targets_blames {ts : List Token} (h : Fails (targets stop.start ts) e) :
    Blames stop ts e (Begins LoopNames.tokens) := by
  rw [targets, fails_bind] at h
  rcases h with hfirst | ⟨first, us, hfirst, hrest⟩
  · exact hfirst.expect hstop [] begins_nil
  · obtain ⟨rfl, hkind⟩ := reads_expect.mp hfirst
    cases us with
    | nil => exact (fails_ok hrest).elim
    | cons u us =>
      by_cases hcomma : u.kind = .comma
      · simp only [accept?, hcomma, if_true, fails_bind_ok] at hrest
        exact hrest.expect hstop [first, u]
          ⟨.two ⟨first, hkind⟩ ⟨u, hcomma⟩ default, by simp [LoopNames.tokens]⟩
      · simp only [accept?, hcomma, if_false] at hrest
        exact (fails_ok hrest).elim

/-! ### Bodies -/

theorem header_blames {keyword : Token} {ts : List Token} (h : Fails (header stop.start keyword ts) e) :
    Blames stop (keyword :: ts) e (Begins Statement.tokens) := by
  rw [header] at h
  split at h
  · rename_i hk
    rw [fails_bind_ok] at h
    exact (closedExpression_blames hstop h).within [keyword] (fun c => .branch ⟨keyword, hk⟩ c.1 c.2 .nil default)
      fun c => by simp [Statement.tokens, closedTokens]
  · rename_i hk
    simp only [fails_bind, fails_bind_ok, exists_prop, reads_expect] at h
    rcases h with hnames | ⟨names, us, hnames, hword | ⟨word, vs, ⟨rfl, hword⟩, hiterable⟩⟩
    · exact (targets_blames hstop hnames).within [keyword]
        (fun d => .loop ⟨keyword, hk⟩ d default default default .nil default) fun d => by simp [Statement.tokens]
    · obtain ⟨d, rfl, -⟩ := targets_sound hnames
      exact hword.expect hstop (keyword :: d.tokens)
        ⟨.loop ⟨keyword, hk⟩ d default default default .nil default, by simp [Statement.tokens]⟩
    · obtain ⟨d, rfl, -⟩ := targets_sound hnames
      have hall : Blames stop (keyword :: (d.tokens ++ [word]) ++ vs) e (Begins Statement.tokens) :=
        (closedExpression_blames hstop hiterable).within _
          (fun c => .loop ⟨keyword, hk⟩ d ⟨word, hword⟩ c.1 c.2 .nil default)
          fun c => by simp [Statement.tokens, closedTokens]
      simpa using hall
  · rename_i hk
    simp only [fails_bind, fails_bind_ok, exists_prop, reads_expect] at h
    rcases h with hname | ⟨name, us, ⟨rfl, hname⟩,
      hparen | ⟨paren, vs, ⟨rfl, hparen⟩, hparameters | ⟨ps, ws, hparameters, hclose⟩⟩⟩
    · exact hname.expect hstop [keyword]
        ⟨.macroDef ⟨keyword, hk⟩ default default default default .nil default, by simp [Statement.tokens]⟩
    · exact hparen.expect hstop [keyword, name]
        ⟨.macroDef ⟨keyword, hk⟩ ⟨name, hname⟩ default default default .nil default, by simp [Statement.tokens]⟩
    · exact (parameters_blames hstop hparameters).within [keyword, name, paren]
        (fun d => .macroDef ⟨keyword, hk⟩ ⟨name, hname⟩ ⟨paren, hparen⟩ d default .nil default)
        fun d => by simp [Statement.tokens]
    · obtain ⟨d, rfl, -⟩ := parameters_sound hparameters
      exact hclose.expect hstop (keyword :: name :: paren :: d.tokens)
        ⟨.macroDef ⟨keyword, hk⟩ ⟨name, hname⟩ ⟨paren, hparen⟩ d default .nil default, by simp [Statement.tokens]⟩
  · rename_i hk
    simp only [fails_bind, fails_bind_ok, exists_prop, reads_expect] at h
    rcases h with hname | ⟨name, us, ⟨rfl, hname⟩, hsign | ⟨sign, vs, ⟨rfl, hsign⟩, hvalue⟩⟩
    · exact hname.expect hstop [keyword]
        ⟨.assign ⟨keyword, hk⟩ default default default default, by simp [Statement.tokens]⟩
    · exact hsign.expect hstop [keyword, name]
        ⟨.assign ⟨keyword, hk⟩ ⟨name, hname⟩ default default default, by simp [Statement.tokens]⟩
    · exact (closedExpression_blames hstop hvalue).within [keyword, name, sign]
        (fun c => .assign ⟨keyword, hk⟩ ⟨name, hname⟩ ⟨sign, hsign⟩ c.1 c.2)
        fun c => by simp [Statement.tokens, closedTokens]
  · exact fails_error.mp h ▸ blames_mismatch hstop [] begins_nil

/-- Where so few tokens are no nodes, what stands before the error starts some. -/
def NodesBlames (stop : Token) (n : Nat) : Prop :=
  ∀ {ends : List TokenKind} {ts : List Token} {e : TemplateError}, ts.length < n →
    Fails (Parser.nodes stop.start ends ts) e → Blames stop ts e (Begins Nodes.tokens)

section
variable {n : Nat} (hnodes : NodesBlames stop n)
include hnodes

omit hstop in
theorem block_blames {ends : List TokenKind} {ts : List Token} (hn : ts.length < n)
    (h : Fails (block stop.start ends ts) e) : Blames stop ts e (Begins Nodes.tokens) := by
  rw [block] at h
  rw [fails_bind_ok] at h
  exact hnodes hn h

/-- A body and the tag that ends it. -/
def closedBlockTokens {kind : TokenKind} (d : Nodes × WordTag kind) : List Token :=
  d.1.tokens ++ d.2.tokens

theorem closedBlock_blames {kind : TokenKind} {ts : List Token} (hn : ts.length < n)
    (h : Fails (block stop.start [kind] ts) e ∨
      ∃ body us, Reads (block stop.start [kind] ts) body us ∧ Fails (expect stop.start .stmtClose us) e) :
    Blames stop ts e (Begins (@closedBlockTokens kind)) := by
  rcases h with hbody | ⟨⟨body, word⟩, us, hbody, hclose⟩
  · exact (block_blames hnodes hn hbody).within [] (fun d => (d, default)) fun d => by simp [closedBlockTokens]
  · obtain ⟨d, opening, last, hlast, hword, rfl, -⟩ :=
      block_sound (nodesSound _) (List.cons_ne_nil _ _) (Nat.le_refl _) hbody
    have hall : Blames stop (d.tokens ++ [opening.val, last] ++ us) e (Begins closedBlockTokens) :=
      hclose.expect hstop _ ⟨(d, ⟨opening, ⟨last, hlast.trans (List.mem_singleton.mp hword)⟩, default⟩),
        by simp [closedBlockTokens, WordTag.tokens]⟩
    simpa using hall

theorem alternative_blames {opening : Word .stmtOpen} {last : Token} {ts : List Token}
    (hlast : last.kind ∈ [.elifWord, .elseWord, .endifWord]) (hn : ts.length < n)
    (h : Fails (Parser.alternative stop.start last.kind ts) e) :
    Blames stop (opening.val :: last :: ts) e (Begins Alternative.tokens) := by
  induction hk : ts.length using Nat.strongRecOn generalizing opening last ts with
  | _ k ih =>
    rw [Parser.alternative.eq_def] at h
    split at h
    · rename_i helif
      simp only [fails_bind, fails_bind_ok, exists_prop] at h
      rcases h with hcondition | ⟨condition, us, hcondition, hbody | ⟨⟨body, word⟩, vs, hbody, hmore⟩⟩
      · exact (closedExpression_blames hstop hcondition).within [opening.val, last]
          (fun c => .elseIf opening ⟨last, helif⟩ c.1 c.2 .nil default)
          fun c => by simp [Alternative.tokens, closedTokens]
      · have := hcondition.shorter
        obtain ⟨c, closing, rfl, -⟩ := closedExpression_sound hcondition
        have hall : Blames stop (opening.val :: last :: (c.tokens ++ [closing.val]) ++ us) e
            (Begins Alternative.tokens) :=
          (block_blames hnodes (by omega) hbody).within _ (fun b => .elseIf opening ⟨last, helif⟩ c closing b default)
            fun b => by simp [Alternative.tokens]
        simpa using hall
      · have := hcondition.shorter
        have := hbody.shorter
        obtain ⟨c, closing, rfl, -⟩ := closedExpression_sound hcondition
        obtain ⟨b, next, nextLast, rfl, hword, rfl, -⟩ :=
          block_sound (nodesSound _) (List.cons_ne_nil _ _) (Nat.le_refl _) hbody
        have hall : Blames stop
            (opening.val :: last :: (c.tokens ++ closing.val :: b.tokens) ++ (next.val :: nextLast :: vs)) e
            (Begins Alternative.tokens) :=
          (ih vs.length (by omega) hword (by omega) hmore rfl).within _ (.elseIf opening ⟨last, helif⟩ c closing b)
            fun r => by simp [Alternative.tokens]
        simpa using hall
    · rename_i helse
      simp only [fails_bind, fails_bind_ok, exists_prop, reads_expect] at h
      rcases h with hclose | ⟨close, us, ⟨rfl, hclose⟩, hbody⟩
      · exact hclose.expect hstop [opening.val, last]
          ⟨.otherwise ⟨opening, ⟨last, helse⟩, default⟩ .nil default, by simp [Alternative.tokens, WordTag.tokens]⟩
      · rw [List.length_cons] at hn
        exact (closedBlock_blames hstop hnodes (by omega) hbody).within [opening.val, last, close]
          (fun d => .otherwise ⟨opening, ⟨last, helse⟩, ⟨close, hclose⟩⟩ d.1 d.2)
          fun d => by simp [Alternative.tokens, WordTag.tokens, closedBlockTokens]
    · rename_i helif helse
      rw [fails_bind_ok] at h
      have hend : last.kind = .endifWord := by
        simp only [List.mem_cons, List.not_mem_nil, or_false] at hlast
        exact (hlast.resolve_left helif).resolve_left helse
      exact h.expect hstop [opening.val, last]
        ⟨.nothing ⟨opening, ⟨last, hend⟩, default⟩, by simp [Alternative.tokens, WordTag.tokens]⟩

theorem statement_blames {keyword : Token} {ts : List Token} (hn : ts.length < n)
    (h : Fails (statement stop.start keyword ts) e) : Blames stop (keyword :: ts) e (Begins Statement.tokens) := by
  rw [statement, fails_bind] at h
  rcases h with hhead | ⟨head, us, hhead, hrest⟩
  · exact header_blames hstop hhead
  · have := hhead.shorter
    rw [reads_header] at hhead
    split at hhead
    · rename_i hk
      obtain ⟨condition, rfl, hcondition⟩ := hhead
      simp only [fails_bind, fails_bind_ok, exists_prop] at hrest
      obtain ⟨c, closing, rfl, -⟩ := closedExpression_sound hcondition
      rcases hrest with hbody | ⟨⟨body, word⟩, vs, hbody, hmore⟩
      · have hall : Blames stop (keyword :: (c.tokens ++ [closing.val]) ++ us) e (Begins Statement.tokens) :=
          (block_blames hnodes (by omega) hbody).within _ (fun b => .branch ⟨keyword, hk⟩ c closing b default)
            fun b => by simp [Statement.tokens]
        simpa using hall
      · have := hbody.shorter
        obtain ⟨b, opening, last, rfl, hword, rfl, -⟩ :=
          block_sound (nodesSound _) (List.cons_ne_nil _ _) (Nat.le_refl _) hbody
        have hall : Blames stop (keyword :: (c.tokens ++ closing.val :: b.tokens) ++ (opening.val :: last :: vs)) e
            (Begins Statement.tokens) :=
          (alternative_blames hstop hnodes hword (by omega) hmore).within _ (.branch ⟨keyword, hk⟩ c closing b)
            fun r => by simp [Statement.tokens]
        simpa using hall
    · rename_i hk
      obtain ⟨names, vs, hnames, word, ws, ⟨rfl, hword⟩, iterable, rfl, hiterable⟩ := hhead
      simp only [fails_bind, fails_bind_ok, exists_prop] at hrest
      obtain ⟨d, rfl, -⟩ := targets_sound hnames
      obtain ⟨i, closing, rfl, -⟩ := closedExpression_sound hiterable
      have hall : Blames stop (keyword :: (d.tokens ++ word :: (i.tokens ++ [closing.val])) ++ us) e
          (Begins Statement.tokens) :=
        (closedBlock_blames hstop hnodes (by omega) hrest).within _
          (fun b => .loop ⟨keyword, hk⟩ d ⟨word, hword⟩ i closing b.1 b.2)
          fun b => by simp [Statement.tokens, closedBlockTokens]
      simpa using hall
    · rename_i hk
      obtain ⟨name, vs, ⟨rfl, hname⟩, paren, ws, ⟨rfl, hparen⟩, ps, xs, rfl, hps, close, rfl, hclose⟩ := hhead
      simp only [fails_bind, fails_bind_ok, exists_prop] at hrest
      obtain ⟨p, rfl, -⟩ := parameters_sound hps
      have hall : Blames stop (keyword :: name :: paren :: (p.tokens ++ [close]) ++ us) e (Begins Statement.tokens) :=
        (closedBlock_blames hstop hnodes (by omega) hrest).within _
          (fun b => .macroDef ⟨keyword, hk⟩ ⟨name, hname⟩ ⟨paren, hparen⟩ p ⟨close, hclose⟩ b.1 b.2)
          fun b => by simp [Statement.tokens, closedBlockTokens]
      simpa using hall
    · obtain ⟨name, vs, -, sign, ws, -, value, rfl, -⟩ := hhead
      exact (fails_ok hrest).elim
    · exact hhead.elim

/-- From nodes of fewer tokens to those of one more. -/
theorem nodesBlames_succ : NodesBlames stop (n + 1) := by
  intro ends ts e hn h
  cases ts with
  | nil =>
    rw [nodes] at h
    split at h
    · exact (fails_ok h).elim
    · exact fails_error.mp h ▸ blames_mismatch hstop [] begins_nil
  | cons t ts =>
    rw [nodes.eq_def] at h
    dsimp only at h
    rw [List.length_cons] at hn
    split at h
    · rename_i hk
      rw [fails_bind_ok] at h
      exact (hnodes (by omega) h).within [t] (.text ⟨t, hk⟩) fun d => by simp [Nodes.tokens]
    · rename_i hk
      rw [fails_bind_ok] at h
      exact (hnodes (by omega) h).within [t] (.blank ⟨t, hk⟩) fun d => by simp [Nodes.tokens]
    · rename_i hk
      rw [fails_bind_ok] at h
      exact (hnodes (by omega) h).within [t] (.comment ⟨t, hk⟩) fun d => by simp [Nodes.tokens]
    · rename_i hk
      simp only [expression, fails_bind, fails_ok, exists_false, or_false, exists_prop, reads_expect] at h
      rcases h with hexpr | ⟨expr, us, hexpr, hclose | ⟨close, vs, ⟨rfl, hclose⟩, hmore⟩⟩
      · exact (level_blames hstop hexpr).within [t] (fun d => .output ⟨t, hk⟩ d default .nil)
          fun d => by simp [Nodes.tokens]
      · obtain ⟨d, rfl, -⟩ := level_sound hexpr
        exact hclose.expect hstop (t :: d.tokens)
          ⟨.output ⟨t, hk⟩ d default .nil, by simp [Nodes.tokens]⟩
      · have := hexpr.shorter
        rw [List.length_cons] at this
        obtain ⟨d, rfl, -⟩ := level_sound hexpr
        have hall : Blames stop (t :: (d.tokens ++ [close]) ++ vs) e (Begins Nodes.tokens) :=
          (hnodes (by omega) hmore).within _ (.output ⟨t, hk⟩ d ⟨close, hclose⟩) fun c => by simp [Nodes.tokens]
        simpa using hall
    · rename_i hk
      cases ts with
      | nil =>
        exact fails_error.mp h ▸ blames_mismatch hstop [t]
          ⟨.statement ⟨t, hk⟩ default .nil, by simp [Nodes.tokens]⟩
      | cons keyword us =>
        rw [List.length_cons] at hn
        dsimp only at h
        split at h
        · exact (fails_ok h).elim
        · simp only [fails_bind, fails_bind_ok, exists_prop] at h
          rcases h with hnode | ⟨node, vs, hnode, hmore⟩
          · exact (statement_blames hstop hnodes (by omega) hnode).within [t] (fun s => .statement ⟨t, hk⟩ s .nil)
              fun s => by simp [Nodes.tokens]
          · have := hnode.shorter
            obtain ⟨s, hs, -⟩ := statement_sound (nodesSound _) (Nat.le_refl _) hnode
            rw [hs]
            exact (hnodes (by omega) hmore).within (t :: s.tokens) (.statement ⟨t, hk⟩ s)
              fun d => by simp [Nodes.tokens]
    · exact fails_error.mp h ▸ blames_mismatch hstop [] begins_nil

end

theorem nodesBlames (n : Nat) : NodesBlames stop n := by
  induction n with
  | zero =>
    intro ends ts e hn
    exact absurd hn (Nat.not_lt_zero _)
  | succ n ih => exact nodesBlames_succ hstop ih

/-- What stands before an error in nodes starts some. -/
theorem nodes_blames {ends : List TokenKind} {ts : List Token} (h : Fails (Parser.nodes stop.start ends ts) e) :
    Blames stop ts e (Begins Nodes.tokens) :=
  nodesBlames hstop _ (Nat.lt_succ_self _) h

end

end TemplatedSql.Grammar
