import Mathlib
import TemplatedSql.Proofs.Token.Blanks
import TemplatedSql.Proofs.Token.Munch

/-! # Tokens lie side by side in the source

Every token stands for a segment of the source. Between the delimiters of a tag white space may come before a
segment; nothing else is left out, and no segments overlap. So gaps and segments one after the other are the source,
and where a segment starts is where its token says. Where a segment ends is told by the source: text goes on to where
something opens, a comment to where one ends, and inside a tag the longest match is taken. -/

namespace TemplatedSql

/-- A token, the characters of the source it stands for, and the white space before them. -/
structure Segment where
  gap : List Char
  raw : List Char
  token : Token

namespace Segment

/-- The part of the source that a segment takes up with the gap before it. -/
def chars (s : Segment) : List Char :=
  s.gap ++ s.raw

/-- The segment of a text unless it is empty. -/
def ofText (kind : TokenKind) (cs : List Char) (p : Position) : List Segment :=
  if cs.isEmpty then [] else [⟨[], cs, ⟨kind, .ofList cs, p⟩⟩]

/-- The segments of the parts of a text, with none for a part that is empty. -/
def ofParts (p : Position) (left kept right : List Char) : List Segment :=
  ofText .trimmedWhitespace left p ++ (ofText .text kept (p.after left) ++
    ofText .trimmedWhitespace right (p.after (left ++ kept)))

/-- The white space before segments is longer. -/
def extend (gap : List Char) : List Segment → List Segment
  | [] => []
  | s :: more => { s with gap := gap ++ s.gap } :: more

@[simp] theorem flatMap_ofText (kind : TokenKind) (cs : List Char) (p : Position) :
    (ofText kind cs p).flatMap chars = cs := by
  cases cs <;> simp [ofText, chars]

@[simp] theorem map_ofText (kind : TokenKind) (cs : List Char) (p : Position) :
    (ofText kind cs p).map (·.token) = Token.ofText kind cs p := by
  cases cs <;> rfl

theorem flatMap_ofParts (p : Position) (left kept right : List Char) :
    (ofParts p left kept right).flatMap chars = left ++ (kept ++ right) := by
  simp [ofParts]

theorem map_ofParts (p : Position) (left kept right : List Char) :
    (ofParts p left kept right).map (·.token) = partTokens p left kept right := by
  simp [ofParts, partTokens]

@[simp] theorem extend_nil (segments : List Segment) : extend [] segments = segments := by
  cases segments <;> rfl

theorem extend_extend (gap more : List Char) (segments : List Segment) :
    extend gap (extend more segments) = extend (gap ++ more) segments := by
  cases segments <;> simp [extend]

@[simp] theorem map_extend (gap : List Char) (segments : List Segment) :
    (extend gap segments).map (·.token) = segments.map (·.token) := by
  cases segments <;> rfl

theorem flatMap_extend {segments : List Segment} (h : segments ≠ []) (gap : List Char) :
    (extend gap segments).flatMap chars = gap ++ segments.flatMap chars := by
  cases segments with
  | nil => exact absurd rfl h
  | cons s more => simp [extend, chars]

end Segment

/-- The segments from a position to the end of a source. The position is outside tags, or inside one that is to be
    closed by a token of the kind given. -/
inductive Laid : Option TokenKind → Position → List Segment → Prop
  | eof {p} : Laid none p [⟨[], [], ⟨.eof, "", p⟩⟩]
  /-- Nothing opens in a text, nor at its end with the character after it. -/
  | text {p raw rest} (hne : raw ≠ []) (hnothing : OpensNothing (raw ++ (rest.flatMap Segment.chars).take 1))
    (h : Laid none (p.after raw) rest) : Laid none p (⟨[], raw, ⟨.text, .ofList raw, p⟩⟩ :: rest)
  | blanks {p raw rest} (hne : raw ≠ []) (hblank : Text.allBlank raw = true) (h : Laid none (p.after raw) rest) :
    Laid none p (⟨[], raw, ⟨.trimmedWhitespace, .ofList raw, p⟩⟩ :: rest)
  /-- A comment goes on to the first place that ends it. -/
  | comment {p hyphen inner raw rest} (hraw : raw = '{' :: '#' :: (hyphen ++ inner ++ ['#', '}']))
    (hhyphen : hyphen = ['-'] ∨ hyphen = [] ∧ (inner ++ ['#', '}']).head? ≠ some '-') (hinner : EndsNoComment inner)
    (h : Laid none (p.after raw) rest) : Laid none p (⟨[], raw, ⟨.comment, .ofList raw, p⟩⟩ :: rest)
  /-- What opens a tag is two characters, and a hyphen if there is one right after them. -/
  | opened {p mark kind close hyphen raw rest} (hmark : (mark, kind, close) ∈ tagMarks)
    (hraw : raw = '{' :: mark :: hyphen)
    (hhyphen : hyphen = ['-'] ∨ hyphen = [] ∧ (rest.flatMap Segment.chars).head? ≠ some '-')
    (h : Laid (some close) (p.after raw) rest) : Laid none p (⟨[], raw, ⟨kind, .ofList raw, p⟩⟩ :: rest)
  | inner {p kind close gap raw text rest} (hgap : ∀ c ∈ gap, isGap c = true) (hkind : kind.isInner = true)
    (htaken : Taken (raw ++ rest.flatMap Segment.chars) raw (.ok (kind, text)))
    (h : Laid (some close) (p.after (gap ++ raw)) rest) :
    Laid (some close) p (⟨gap, raw, ⟨kind, text, p.after gap⟩⟩ :: rest)
  | closed {p close gap raw rest} (hgap : ∀ c ∈ gap, isGap c = true) (hclose : close.isClose = true)
    (htaken : Taken (raw ++ rest.flatMap Segment.chars) raw (.ok (close, .ofList raw)))
    (h : Laid none (p.after (gap ++ raw)) rest) :
    Laid (some close) p (⟨gap, raw, ⟨close, .ofList raw, p.after gap⟩⟩ :: rest)

namespace Laid
variable {close : Option TokenKind} {p : Position} {segments : List Segment}

theorem ne_nil (h : Laid close p segments) : segments ≠ [] := by
  cases h <;> exact List.cons_ne_nil _ _

/-- White space inside a tag belongs to the gap before the next token. -/
theorem extend {close : TokenKind} {c : Char} (hc : isGap c = true) (h : Laid (some close) (p.next c) segments) :
    Laid (some close) p (Segment.extend [c] segments) := by
  cases h with
  | inner hgap hkind htaken h => exact .inner (List.forall_mem_cons.mpr ⟨hc, hgap⟩) hkind htaken h
  | closed hgap hclose htaken h => exact .closed (List.forall_mem_cons.mpr ⟨hc, hgap⟩) hclose htaken h

/-- The parts of a text are laid out in it. -/
theorem ofParts {trimStart trimEnd : Bool} {text left kept right : List Char}
    (htrims : Trims trimStart trimEnd text left kept right)
    (hnothing : OpensNothing (text ++ (segments.flatMap Segment.chars).take 1))
    (h : Laid none (p.after text) segments) : Laid none p (Segment.ofParts p left kept right ++ segments) := by
  have hblanks : ∀ {raw p more}, Text.allBlank raw = true → Laid none (p.after raw) more →
      Laid none p (Segment.ofText .trimmedWhitespace raw p ++ more) := by
    intro raw p more hblank h
    cases raw with
    | nil => exact h
    | cons c raw => exact .blanks (List.cons_ne_nil c raw) hblank h
  have htext : ∀ {raw p more}, OpensNothing (raw ++ (more.flatMap Segment.chars).take 1) → Laid none (p.after raw) more →
      Laid none p (Segment.ofText .text raw p ++ more) := by
    intro raw p more hnothing h
    cases raw with
    | nil => exact h
    | cons c raw => exact .text (List.cons_ne_nil c raw) hnothing h
  rw [htrims.split, Position.after_append, Position.after_append] at h
  rw [Segment.ofParts, List.append_assoc, List.append_assoc]
  refine hblanks htrims.left_blank (htext (hnothing.of_infix ?_) ?_)
  · -- The character after what is kept is the first one of the blanks there, or stands after the text.
    rw [List.flatMap_append, Segment.flatMap_ofText, htrims.split]
    refine ⟨left, ?_⟩
    cases right with
    | nil => exact ⟨[], by simp⟩
    | cons c right => exact ⟨right ++ (segments.flatMap Segment.chars).take 1, by simp⟩
  · rw [Position.after_append]
    exact hblanks htrims.right_blank h

end Laid

/-! ### Scanning -/

/-- What closes the tag that the scanner is in, if it is in one. -/
def ScanMode.close? : ScanMode → Option TokenKind
  | .outside _ => none
  | .inside tag => some tag.close

theorem FirstOpening.hyphen_of_comment {cs text hyphen inner more : List Char}
    (h : FirstOpening cs text '#' hyphen (inner ++ ['#', '}'] ++ more)) :
    hyphen = ['-'] ∨ hyphen = [] ∧ (inner ++ ['#', '}']).head? ≠ some '-' := by
  refine h.hyphen.imp_right (And.imp_right fun hhead => ?_)
  rwa [List.head?_append_of_ne_nil _ (by simp)] at hhead

/-- The text of a closing is what stands there. -/
theorem Taken.closing_text {cs raw : List Char} {kind : TokenKind} {text : String} (h : Taken cs raw (.ok (kind, text)))
    (hclose : kind.isClose = true) : text = .ofList raw :=
  h.spelled.text_eq fun hkind => by
    rw [hkind] at hclose
    cases hclose

/-- The tokens of a text lie side by side in it. The induction is on how it is cut. -/
theorem Munched.laid {mode : ScanMode} {cs : List Char} {p : Position} {result : Except TemplateError (List Token)}
    (h : Munched mode cs p result) {tokens : List Token} (hresult : result = .ok tokens) :
    ∃ segments, Laid mode.close? p segments ∧ segments.flatMap Segment.chars = cs ∧
      segments.map (·.token) = tokens := by
  induction h generalizing tokens with
  | @ends trim cs p hnothing =>
    cases hresult
    obtain ⟨left, kept, right, htrims, htokens⟩ := exists_trims trim false cs
    refine ⟨_, .ofParts htrims (by simpa [Segment.chars] using hnothing) .eof, ?_, ?_⟩
    · simp [Segment.flatMap_ofParts, Segment.chars, htrims.split]
    · simp [Segment.map_ofParts, htokens]
  | openComment | unclosed | fault | unexpected | wrongClose => cases hresult
  | @comment trim cs p text hyphen inner more result hopening hinner _ ih =>
    obtain ⟨tokens, hmore, rfl⟩ := map_eq_ok_iff.mp hresult
    obtain ⟨segments, hlaid, rfl, rfl⟩ := ih hmore
    obtain ⟨left, kept, right, htrims, htokens⟩ := exists_trims trim (!hyphen.isEmpty) text
    have hcomment := Laid.comment rfl hopening.hyphen_of_comment hinner hlaid
    refine ⟨_, .ofParts htrims (by simpa [Segment.chars] using hopening.first) hcomment, ?_, ?_⟩
    · rw [hopening.split]
      simp [Segment.flatMap_ofParts, Segment.chars, htrims.split]
    · simp [Segment.map_ofParts, htokens]
  | @opened trim cs p text mark hyphen body kind close result hmark hopening _ ih =>
    obtain ⟨tokens, hmore, rfl⟩ := map_eq_ok_iff.mp hresult
    obtain ⟨segments, hlaid, rfl, rfl⟩ := ih hmore
    obtain ⟨left, kept, right, htrims, htokens⟩ := exists_trims trim (!hyphen.isEmpty) text
    have hopened := Laid.opened hmark rfl hopening.hyphen hlaid
    refine ⟨_, .ofParts htrims (by simpa [Segment.chars] using hopening.first) hopened, ?_, ?_⟩
    · rw [hopening.split]
      simp [Segment.flatMap_ofParts, Segment.chars, htrims.split]
    · simp [Segment.map_ofParts, htokens]
  | gap hgap _ ih =>
    obtain ⟨segments, hlaid, rfl, rfl⟩ := ih hresult
    exact ⟨_, hlaid.extend hgap, Segment.flatMap_extend hlaid.ne_nil _, Segment.map_extend _ _⟩
  | closed htaken hclose _ ih =>
    obtain ⟨tokens, hmore, rfl⟩ := map_eq_ok_iff.mp hresult
    obtain ⟨segments, hlaid, rfl, rfl⟩ := ih hmore
    obtain rfl := htaken.closing_text hclose
    exact ⟨_, .closed (List.forall_mem_nil _) hclose htaken hlaid, rfl, rfl⟩
  | token htaken hclose _ ih =>
    obtain ⟨tokens, hmore, rfl⟩ := map_eq_ok_iff.mp hresult
    obtain ⟨segments, hlaid, rfl, rfl⟩ := ih hmore
    have hinner := htaken.spelled.inner_or_close.resolve_right (Bool.eq_false_iff.mp hclose)
    exact ⟨_, .inner (List.forall_mem_nil _) hinner htaken hlaid, rfl, rfl⟩

theorem Token.scan_laid {source : String} {tokens : List Token} (h : Token.scan source = .ok tokens) :
    ∃ segments, Laid none .start segments ∧ segments.flatMap Segment.chars = source.toList ∧
      segments.map (·.token) = tokens := by
  rw [Token.scan_eq] at h
  exact (munched_scanFrom _ _ _).laid h

/-- The last token marks the end, and no other one does. -/
def EndsOnce (tokens : List Token) : Prop :=
  ∃ front stop, tokens = front ++ [stop] ∧ stop.kind = .eof ∧ stop.text = "" ∧ ∀ t ∈ front, t.kind ≠ .eof

theorem EndsOnce.cons {t : Token} {tokens : List Token} (h : EndsOnce tokens) (ht : t.kind ≠ .eof) :
    EndsOnce (t :: tokens) := by
  obtain ⟨front, stop, rfl, hstop, htext, hfront⟩ := h
  exact ⟨t :: front, stop, rfl, hstop, htext, List.forall_mem_cons.mpr ⟨ht, hfront⟩⟩

theorem Laid.endsOnce {close : Option TokenKind} {p : Position} {segments : List Segment} (h : Laid close p segments) :
    EndsOnce (segments.map (·.token)) := by
  induction h with
  | eof => exact ⟨[], _, rfl, rfl, rfl, List.forall_mem_nil _⟩
  | text _ _ _ ih | blanks _ _ _ ih | comment _ _ _ _ ih => exact ih.cons TokenKind.noConfusion
  | opened hmark _ _ _ ih =>
    have hmarks : ∀ m ∈ tagMarks, m.2.1 ≠ .eof := by decide
    exact ih.cons (hmarks _ hmark)
  | inner _ hkind _ _ ih =>
    refine ih.cons ?_
    rintro rfl
    cases hkind
  | closed _ hclose _ _ ih =>
    refine ih.cons ?_
    rintro rfl
    cases hclose

/-- Tokens partition their source. Where a source is cut into tokens, each of them stands for a segment, the source
    is all segments in order with gaps between them, and every token starts where its segment does. Gaps are white
    space between the delimiters of a tag; a token's text is its segment, but for a string, whose segment stands
    between quotes and is unescaped; what opens a tag is closed by its counterpart with nothing between that
    belongs outside; and outside tags no text is empty or opens one. The end has the only token of its kind, which
    is the last one and has no text. -/
theorem tokens_partition_source {source : String} {tokens : List Token} (h : Token.scan source = .ok tokens) :
    (∃ segments, Laid none .start segments ∧ segments.flatMap Segment.chars = source.toList ∧
      segments.map (·.token) = tokens) ∧
    EndsOnce tokens := by
  obtain ⟨segments, hlaid, hchars, rfl⟩ := Token.scan_laid h
  exact ⟨⟨segments, hlaid, hchars, rfl⟩, hlaid.endsOnce⟩

/-- A string with a quote and a closing delimiter in it, between hyphens that drop the blanks around the tag. -/
theorem tokens_partition_source_around_string :
    let source := "a \x7b\x7b- '\\'\x7d\x7d' -\x7d\x7d c"
    let tokens : List Token :=
      [⟨.text, "a", ⟨1, 1⟩⟩, ⟨.trimmedWhitespace, " ", ⟨1, 2⟩⟩, ⟨.exprOpen, "\x7b\x7b-", ⟨1, 3⟩⟩,
        ⟨.string, "'\x7d\x7d", ⟨1, 7⟩⟩, ⟨.exprClose, "-\x7d\x7d", ⟨1, 14⟩⟩, ⟨.trimmedWhitespace, " ", ⟨1, 17⟩⟩,
        ⟨.text, "c", ⟨1, 18⟩⟩, ⟨.eof, "", ⟨1, 19⟩⟩]
    Token.scan source = .ok tokens ∧ ∃ segments, Laid none .start segments ∧
      segments.flatMap Segment.chars = source.toList ∧ segments.map (·.token) = tokens := by
  intro source tokens
  have hscan : Token.scan source = .ok tokens := by cbv
  exact ⟨hscan, (tokens_partition_source hscan).1⟩

end TemplatedSql
