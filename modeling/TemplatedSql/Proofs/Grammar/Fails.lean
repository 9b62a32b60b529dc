import TemplatedSql.Proofs.Grammar.Derivation
import TemplatedSql.Proofs.Grammar.Reads

/-! # Where the parser fails

A step of the parser fails where its first part does, or where a later part does after the parts before it were read.
The error blames a token, and the tokens before it start something that has a derivation: whatever is missing there
could still come. -/

namespace TemplatedSql.Parser

variable {α β : Type} {n : Nat} {ts us : List Token} {e : TemplateError}

/-! ### Failing steps -/

/-- The parser fails with an error. -/
def Fails (r : Except TemplateError α) (e : TemplateError) : Prop :=
  r = .error e

@[simp] theorem fails_ok {a : α} : ¬Fails (.ok a) e := by
  intro h
  cases h

@[simp] theorem fails_error {e' : TemplateError} : Fails (.error e' : Except TemplateError α) e ↔ e' = e :=
  Except.error.injEq e' e ▸ Iff.rfl

theorem fails_bind {r : Except TemplateError (Parsed α n)} {f : Parsed α n → Except TemplateError β} :
    Fails (r >>= f) e ↔ Fails r e ∨ ∃ a ts, ∃ h : Reads r a ts, Fails (f ⟨a, ts, h.shorter⟩) e := by
  refine bind_eq_error_iff.trans (or_congr_right ?_)
  constructor
  · rintro ⟨⟨a, ts, hts⟩, ha, he⟩
    exact ⟨a, ts, ⟨hts, ha⟩, he⟩
  · rintro ⟨a, ts, ⟨hts, ha⟩, he⟩
    exact ⟨⟨a, ts, hts⟩, ha, he⟩

/-- A step that only rewraps what its part gives fails where the part does. -/
theorem fails_bind_ok {r : Except TemplateError α} {f : α → β} :
    Fails (r >>= fun a => .ok (f a)) e ↔ Fails r e := by
  cases r with
  | ok a => exact iff_of_false fails_ok fails_ok
  | error e' => exact fails_error.trans fails_error.symm

/-! ### Blame -/

/-- An error blames one of the tokens `ts`, which end before `stop`, or the stop, and `S` holds of those before it. -/
def Blames (stop : Token) (ts : List Token) (e : TemplateError) (S : List Token → Prop) : Prop :=
  ∃ before t after, ts ++ [stop] = before ++ t :: after ∧ (∃ expected, e = ⟨t.start, .parse expected t.describe⟩) ∧
    S before

/-- The tokens start something of a sort that has the tokens given. -/
def Begins {D : Type} (tokens : D → List Token) (before : List Token) : Prop :=
  ∃ d, before <+: tokens d

variable {stop : Token} {D D' : Type} {tokens : D → List Token} {tokens' : D' → List Token}

theorem begins_nil [Inhabited D] : Begins tokens [] :=
  ⟨default, List.nil_prefix⟩

/-- What is blamed in a part is blamed in the whole, whatever stands in front of the part. -/
theorem Blames.within (h : Blames stop us e (Begins tokens)) (front : List Token) (f : D → D')
    (hf : ∀ d, front ++ tokens d <+: tokens' (f d)) : Blames stop (front ++ us) e (Begins tokens') := by
  obtain ⟨before, t, after, hsplit, hcause, d, hd⟩ := h
  refine ⟨front ++ before, t, after, by rw [List.append_assoc, hsplit, List.append_assoc], hcause, f d, ?_⟩
  exact ((List.prefix_append_right_inj front).mpr hd).trans (hf d)

/-- A mismatch blames the next token. -/
theorem blames_mismatch (hstop : stop.kind = .eof) {expected : String} (front : List Token)
    (hfront : Begins tokens front) : Blames stop (front ++ us) (mismatch stop.start expected us) (Begins tokens) := by
  cases us with
  | nil =>
    refine ⟨front, stop, [], by rw [List.append_nil], ⟨expected, ?_⟩, hfront⟩
    rw [Token.describe, hstop]
    rfl
  | cons t us => exact ⟨front, t, us ++ [stop], by simp, ⟨expected, rfl⟩, hfront⟩

theorem Fails.expect {kind : TokenKind} (h : Fails (expect stop.start kind us) e) (hstop : stop.kind = .eof)
    (front : List Token) (hfront : Begins tokens front) : Blames stop (front ++ us) e (Begins tokens) := by
  have he : e = mismatch stop.start kind.describe us := by
    cases us with
    | nil => exact (fails_error.mp h).symm
    | cons t us =>
      rw [Parser.expect] at h
      split at h
      · exact (fails_ok h).elim
      · exact (fails_error.mp h).symm
  rw [he]
  exact blames_mismatch hstop front hfront

/-- A token that should spell a number and does not is blamed itself. -/
theorem Fails.readNumber {t : Token} (h : Fails (readNumber t) e) (front : List Token)
    (hfront : Begins tokens front) : Blames stop (front ++ t :: us) e (Begins tokens) := by
  refine ⟨front, t, us ++ [stop], by simp, ⟨"number", ?_⟩, hfront⟩
  rw [Parser.readNumber] at h
  split at h
  · exact (fails_ok h).elim
  · exact (fails_error.mp h).symm

end TemplatedSql.Parser

namespace TemplatedSql.Grammar

/-! ### Something of every sort -/

instance (kind : TokenKind) : Inhabited (Word kind) := ⟨⟨⟨kind, "", .start⟩, rfl⟩⟩

instance (kind : TokenKind) : Inhabited (WordTag kind) := ⟨⟨default, default, default⟩⟩

instance : Inhabited Numeral := ⟨⟨⟨⟨.number, "0", .start⟩, rfl⟩, _, (rfl : Number.ofString? "0" = some _)⟩⟩

instance : Inhabited Primary := ⟨.trueWord default⟩

instance : Inhabited Postfixes := ⟨.nil⟩

instance {l : Parser.Level} : Inhabited (Chain l) := ⟨.nil⟩

/-- A primary expression is an expression of every level. -/
def Expression.ofPrimary (d : Primary) (l : Parser.Level) : Expression l :=
  if h : l = .operand then h ▸ .applied d .nil else .chain h (ofPrimary d l.next) .nil
termination_by l.rank
decreasing_by exact Parser.Level.rank_next_lt h

instance {l : Parser.Level} : Inhabited (Expression l) := ⟨.ofPrimary default l⟩

instance {seen : List String} : Inhabited (Arguments seen) := ⟨.close default⟩

instance {seen : List String} : Inhabited (MoreArguments seen) := ⟨.close default⟩

instance : Inhabited Items := ⟨.close default⟩

instance : Inhabited MoreItems := ⟨.close default⟩

instance : Inhabited Default := ⟨.trueWord default⟩

instance : Inhabited DefaultClause := ⟨.nothing⟩

instance {seen : List String} : Inhabited (Parameters seen) := ⟨.close default⟩

instance : Inhabited LoopNames := ⟨.one default⟩

instance : Inhabited Nodes := ⟨.nil⟩

instance : Inhabited Statement := ⟨.assign default default default default default⟩

instance : Inhabited Alternative := ⟨.nothing default⟩

end TemplatedSql.Grammar
