import TemplatedSql.Error
import TemplatedSql.Text.Blank
import TemplatedSql.Token.Lexeme
import TemplatedSql.Token.Locator

/-!
# Cutting a template into tokens

Outside tags a template is text up to the next tag opening. A tag opening is a brace with a brace, a
percent sign or a hash; a hyphen right after it drops the blanks at the end of the text before it, and
a hyphen right before a tag's closing drops those at the start of the text after it. What is dropped
stays in the token list as a token of its own, so the tokens still cover the whole text. Adjacent tags
have no text between them, so a hyphen between two tags has no effect past the second.

A source is read once from left to right. A hyphen before a closing is remembered until the next text
comes; one after an opening takes the blanks off the text that was added last.
-/

namespace TemplatedSql

/-- What a tag opening opens. -/
inductive Marker
  | expr
  | stmt
  | comment
deriving DecidableEq

namespace Marker

/-- The second character of a tag opening. -/
def ofChar? (c : Char) : Option Marker :=
  if c = '{' then some expr else if c = '%' then some stmt else if c = '#' then some comment else none

/-- The tag opening that a text starts with. -/
def ofText? : List Char → Option Marker
  | '{' :: c :: _ => ofChar? c
  | _ => none

end Marker

/-- How many characters stand before the first tag opening. -/
def textSize : List Char → Nat
  | [] => 0
  | c :: cs => if (Marker.ofText? (c :: cs)).isSome then 0 else textSize cs + 1

/-- How many characters stand before the end of a comment. -/
def commentSize? : List Char → Option Nat
  | [] => none
  | c :: cs => if ['#', '}'].isPrefixOf (c :: cs) then some 0 else (commentSize? cs).map (· + 1)

/-- Fails at a place. -/
def LexFault.throw {α : Type} (fault : LexFault) (p : Position) : Except TemplateError α :=
  .error ⟨p, .lex fault.reason⟩

/-- A tag that is open: the closing it needs and the offset it started at. -/
structure OpenTag where
  close : TokenKind
  offset : Nat

/-- How far the cutting of a source has come. -/
structure Lexer where
  /-- How many bytes have been cut. -/
  offset : Nat
  locator : Locator
  /-- The tokens so far, the last one first. -/
  tokens : List Token
  /-- Whether the next text loses the blanks at its start. -/
  trimNext : Bool

namespace Lexer

/-- The start of a source. -/
def start (source : List Char) : Lexer where
  offset := 0
  locator := .ofSource source
  tokens := []
  trimNext := false

/-- The position of an offset. -/
def position (l : Lexer) (offset : Nat) : Position :=
  (l.locator.locate offset).1

/-- Goes past a text. -/
def pass (l : Lexer) (cs : List Char) : Lexer :=
  { l with offset := l.offset + Text.byteCount cs }

/-- Adds a token that starts at an offset. -/
def push (l : Lexer) (kind : TokenKind) (offset : Nat) (text : String) : Lexer :=
  let (start, locator) := l.locator.locate offset
  { l with locator, tokens := ⟨kind, text, start⟩ :: l.tokens }

/-- Adds a token unless its text is empty. -/
def pushUnlessEmpty (l : Lexer) (kind : TokenKind) (offset : Nat) (text : List Char) : Lexer :=
  if text.isEmpty then l else l.push kind offset (.ofList text)

/-- Adds the tokens of a text that comes next: the blanks at its start, if it loses them, and the rest. -/
def pushText (l : Lexer) (text : List Char) : Lexer :=
  let kept := if l.trimNext then Text.trimStart text else text
  let blanks := text.take (text.length - kept.length)
  ({ l with trimNext := false }.pushUnlessEmpty .trimmedWhitespace l.offset blanks).pushUnlessEmpty .text
    (l.offset + Text.byteCount blanks) kept

/-- Takes the blanks at its end off the text right before the offset and makes them a token of their
own. -/
def trimPrevious (l : Lexer) : Lexer :=
  match l.tokens with
  | [] => l
  | last :: tokens =>
    if last.kind ≠ .text then l
    else
      let text := last.text.toList
      let kept := Text.trimEnd text
      if kept.length = text.length then l
      else if kept.isEmpty then
        { l with tokens := { last with kind := .trimmedWhitespace } :: tokens }
      else
        let blanks := text.drop kept.length
        { l with tokens := { last with text := .ofList kept } :: tokens }.push .trimmedWhitespace
          (l.offset - Text.byteCount blanks) (.ofList blanks)

/-- Adds the text that comes next, if there is any, and goes past it. -/
def passText (l : Lexer) (text : List Char) : Lexer :=
  (if text.isEmpty then l else l.pushText text).pass text

/-- Goes past the text before an opening. A hyphen that was remembered until here is forgotten; the one of
the opening takes effect at once. -/
def passTextBefore (l : Lexer) (text hyphen : List Char) : Lexer :=
  let l := { l.passText text with trimNext := false }
  if hyphen.isEmpty then l else l.trimPrevious

/-- Cuts `cs`, which is the rest of the source, inside a tag or outside any. -/
def run : Option OpenTag → Lexer → List Char → Except TemplateError (List Token)
  | none, l, cs =>
    let text := cs.take (textSize cs)
    match _h : cs.drop (textSize cs) with
    | brace :: mark :: rest =>
      let hyphen := rest.take (if rest.head? = some '-' then 1 else 0)
      let body := rest.drop hyphen.length
      let opening := brace :: mark :: hyphen
      let l := l.passTextBefore text hyphen
      let tag (kind close : TokenKind) : Except TemplateError (List Token) :=
        run (some ⟨close, l.offset⟩) ((l.push kind l.offset (.ofList opening)).pass opening) body
      match Marker.ofChar? mark with
      | some .comment =>
        match commentSize? body with
        | none => LexFault.unterminatedComment.throw (l.position l.offset)
        | some n =>
          let comment := opening ++ body.take (n + 2)
          let l := (l.push .comment l.offset (.ofList comment)).pass comment
          run none { l with trimNext := (body.take n).getLast? = some '-' } (body.drop (n + 2))
      | some .expr => tag .exprOpen .exprClose
      | _ => tag .stmtOpen .stmtClose
    | _ =>
      let l := l.passText cs
      .ok (l.push .eof l.offset "").tokens.reverse
  | some tag, l, [] => (LexFault.unterminatedTag tag.close).throw (l.position tag.offset)
  | some tag, l, c :: cs =>
    if isGap c then run (some tag) (l.pass [c]) cs
    else
      match lexeme c cs with
      | .error fault => fault.throw (l.position l.offset)
      | .ok lexeme =>
        let raw := c :: cs.take lexeme.extra
        if lexeme.kind = .exprClose ∨ lexeme.kind = .stmtClose then
          if lexeme.kind = tag.close then
            let l := (l.push lexeme.kind l.offset lexeme.text).pass raw
            run none { l with trimNext := c == '-' } (cs.drop lexeme.extra)
          else
            let (p, locator) := l.locator.locate l.offset
            (LexFault.wrongClose tag.close (locator.locate tag.offset).1 lexeme.text).throw p
        else
          run (some tag) ((l.push lexeme.kind l.offset lexeme.text).pass raw) (cs.drop lexeme.extra)
termination_by _ _ cs => cs.length
decreasing_by
  all_goals simp only [List.length_drop, List.length_cons]
  all_goals first
    | omega
    | replace _h := congrArg List.length _h
      simp only [List.length_drop, List.length_cons] at _h
      omega

end Lexer

/-- Cuts a template into tokens; the last one, of no text, marks its end. -/
def Token.scan (source : String) : Except TemplateError (List Token) :=
  Lexer.run none (.start source.toList) source.toList

end TemplatedSql
