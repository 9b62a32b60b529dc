import TemplatedSql.Error
import TemplatedSql.Token
import TemplatedSql.Tree

/-!
# Steps of a parser

A parser reads a list of tokens from the front and gives what it read together with the rest. The
result carries a proof that the rest is shorter than a bound, so a loop over such steps ends. The
lists hold no end token: `stop` is the place to report when they run out.
-/

namespace TemplatedSql.Parser

/-- What a parser read, and the tokens after it, fewer than `bound`. -/
structure Parsed (α : Type) (bound : Nat) where
  value : α
  rest : List Token
  shorter : rest.length < bound

/-- A parser of `α` that reads at least one token. -/
abbrev Step (α : Type) := (ts : List Token) → Except TemplateError (Parsed α ts.length)

namespace Parsed

variable {α β : Type} {n : Nat}

/-- The same rest with another value. -/
def as (p : Parsed α n) (value : β) : Parsed β n :=
  ⟨value, p.rest, p.shorter⟩

/-- What was read where one more token had been read before. -/
def skip (p : Parsed α n) : Parsed α (n + 1) :=
  ⟨p.value, p.rest, Nat.lt_succ_of_lt p.shorter⟩

/-- What was read after something else. -/
def after (p : Parsed α n) (q : Parsed β p.rest.length) : Parsed β n :=
  ⟨q.value, q.rest, Nat.lt_trans q.shorter p.shorter⟩

/-- What was read, if anything, after something else. -/
def along (p : Parsed α n) (q : Parsed β (p.rest.length + 1)) : Parsed β n :=
  ⟨q.value, q.rest, Nat.lt_of_le_of_lt (Nat.le_of_lt_succ q.shorter) p.shorter⟩

/-- A value that no token was read for. -/
def nothing (value : α) (ts : List Token) : Parsed α (ts.length + 1) :=
  ⟨value, ts, Nat.lt_succ_self _⟩

end Parsed

/-- What follows the first token is shorter. -/
theorem length_lt_cons (t : Token) (ts : List Token) : ts.length < (t :: ts).length :=
  Nat.lt_succ_self _

/-- What follows the first two tokens is shorter. -/
theorem length_lt_cons_cons (t u : Token) (ts : List Token) : ts.length < (t :: u :: ts).length :=
  Nat.lt_trans (length_lt_cons u ts) (length_lt_cons t (u :: ts))

/-- The place of the first token, or of the end. -/
def place (stop : Position) : List Token → Position
  | [] => stop
  | t :: _ => t.start

/-- The error of finding something else than was expected. -/
def mismatch (stop : Position) (expected : String) (ts : List Token) : TemplateError :=
  ⟨place stop ts, .parse expected (ts.head?.elim TokenKind.eof.describe Token.describe)⟩

/-- Reads one token of a kind. -/
def expect (stop : Position) (kind : TokenKind) : Step Token
  | t :: ts =>
    if t.kind = kind then .ok ⟨t, ts, length_lt_cons t ts⟩
    else .error (mismatch stop kind.describe (t :: ts))
  | [] => .error (mismatch stop kind.describe [])

/-- Reads one token of a kind, if it comes next. -/
def accept? (kind : TokenKind) : (ts : List Token) → Option (Parsed Token ts.length)
  | t :: ts => if t.kind = kind then some ⟨t, ts, length_lt_cons t ts⟩ else none
  | [] => none

end TemplatedSql.Parser
