import TemplatedSql.Proofs.Token.Reach

/-! # Hyphens drop the blanks beside a tag

Where the runs of text of a source start and end is told by the source: at its comments, and at its tags, whose tokens
are the longest matches. The blanks that a run loses are told by the hyphens of the two tags or comments beside it.
Those are all blanks that are dropped. -/

namespace TemplatedSql

/-- Whether the token stands for text between two tags, kept or dropped. -/
def Token.isRaw (t : Token) : Bool :=
  t.kind == .text || t.kind == .trimmedWhitespace

/-- All the text between two tags or comments of a source, or between one of them and an end of the source. It is told
    whether what stands before it closes with a hyphen, and whether what stands after it opens with one. -/
inductive TextRun (source : List Char) : (closes opens : Bool) → (before text after : List Char) → Prop
  | last {closes before text} (h : Cut source (.outside closes) before) (hsource : before ++ text = source)
    (htext : OpensNothing text) : TextRun source closes false before text []
  | between {closes before text mark hyphen body} (h : Cut source (.outside closes) before)
    (hsource : before ++ (text ++ '{' :: mark :: (hyphen ++ body)) = source)
    (hmark : mark = '#' ∨ ∃ kind close, (mark, kind, close) ∈ tagMarks)
    (hopening : FirstOpening (text ++ '{' :: mark :: (hyphen ++ body)) text mark hyphen body) :
    TextRun source closes (!hyphen.isEmpty) before text ('{' :: mark :: (hyphen ++ body))

/-! ### The tokens of a run -/

theorem Marker.isSome_of_mark {mark : Char} (h : mark = '#' ∨ ∃ kind close, (mark, kind, close) ∈ tagMarks) :
    (Marker.ofChar? mark).isSome = true := by
  have hmarks : ∀ m ∈ tagMarks, (Marker.ofChar? m.1).isSome = true := by decide
  rcases h with rfl | ⟨kind, close, hmark⟩
  · rfl
  · exact hmarks _ hmark

/-- The tokens of a text come first, and the hyphen before it has no effect on what stands after it. -/
theorem FirstOpening.scanFrom_eq {cs text hyphen body : List Char} {mark : Char}
    (h : FirstOpening cs text mark hyphen body) (hmark : mark = '#' ∨ ∃ kind close, (mark, kind, close) ∈ tagMarks)
    (closes : Bool) (p : Position) : scanFrom (.outside closes) cs p =
      (scanFrom (.outside false) ('{' :: mark :: (hyphen ++ body)) (p.after text)).map
        (textTokens closes (!hyphen.isEmpty) text p ++ ·) := by
  have hopens := h.opens (Marker.isSome_of_mark hmark)
  have hnext : FirstOpening ('{' :: mark :: (hyphen ++ body)) [] mark hyphen body := ⟨rfl, by decide, h.hyphen⟩
  have hnextOpens := hnext.opens (Marker.isSome_of_mark hmark)
  rcases hmark with rfl | ⟨kind, close, hmark⟩
  · rw [scanFrom_comment hopens, scanFrom_comment hnextOpens, textTokens_nil, Position.after_nil]
    cases commentSize? body with
    | none => rfl
    | some n =>
      dsimp only
      generalize scanFrom _ _ _ = result
      cases result <;> rfl
  · rw [scanFrom_tag hmark hopens, scanFrom_tag hmark hnextOpens, textTokens_nil, Position.after_nil]
    generalize scanFrom _ _ _ = result
    cases result <;> rfl

section
variable {source before text after : List Char} {closes opens : Bool}

theorem TextRun.scanFrom_eq (h : TextRun source closes opens before text after) (p : Position) :
    scanFrom (.outside closes) (text ++ after) p =
      (scanFrom (.outside false) after (p.after text)).map (textTokens closes opens text p ++ ·) := by
  cases h with
  | last _ _ htext =>
    have hnothing : ([] : List Char).drop (textSize []) = [] := rfl
    rw [List.append_nil, scanFrom_end (drop_textSize_of_opensNothing htext), scanFrom_end hnothing, textTokens_nil]
    rfl
  | between _ _ hmark hopening => exact hopening.scanFrom_eq hmark closes p

theorem TextRun.cut (h : TextRun source closes opens before text after) :
    Cut source (.outside closes) before ∧ before ++ (text ++ after) = source := by
  cases h with
  | last hcut hsource => exact ⟨hcut, by rw [List.append_nil, hsource]⟩
  | between hcut hsource => exact ⟨hcut, hsource⟩

theorem TextRun.opensNothing (h : TextRun source closes opens before text after) :
    OpensNothing (text ++ after.take 1) := by
  cases h with
  | last _ _ htext => rwa [List.take_nil, List.append_nil]
  | between _ _ _ hopening => exact hopening.first

/-- A run of text is cut into what the hyphens split it into, between the segments of what stands before it and of what
    stands after it. -/
theorem TextRun.laid {tokens : List Token} (hscan : scanFrom (.outside false) source .start = .ok tokens)
    (h : TextRun source closes opens before text after) : ∃ front back left kept right,
      Trims closes opens text left kept right ∧
      Laid none .start (front ++ (Segment.ofParts (.reached before) left kept right ++ back)) ∧
      front.flatMap Segment.chars = before ∧ back.flatMap Segment.chars = after ∧
      tokens = front.map (·.token) ++ (partTokens (.reached before) left kept right ++ back.map (·.token)) := by
  obtain ⟨hcut, hsource⟩ := h.cut
  obtain ⟨front, gap, hfronts⟩ := hcut.fronts
  obtain rfl : gap = [] := hfronts.gap_outside rfl
  have hchars := hfronts.chars
  rw [List.append_nil] at hchars
  obtain ⟨left, kept, right, htrims, htokens⟩ := exists_trims closes opens text
  -- Cutting the source is cutting what stands before the run, the run, and what stands after it.
  have hall := (hfronts.munched _ _ hsource (munched_scanFrom _ _ _)).scanFrom_eq
  rw [Site.mode, h.scanFrom_eq, htokens, hscan] at hall
  obtain ⟨_, hrest, rfl⟩ := map_eq_ok_iff.mp hall.symm
  obtain ⟨more, hmore, rfl⟩ := map_eq_ok_iff.mp hrest
  obtain ⟨back, hback, rfl, rfl⟩ := (munched_scanFrom _ _ _).laid hmore
  have hrun : Laid none (.reached before) (Segment.ofParts (.reached before) left kept right ++ back) :=
    .ofParts htrims h.opensNothing hback
  refine ⟨front, back, left, kept, right, htrims, ?_, hchars, rfl, rfl⟩
  have hlaid := hfronts.laid _ hrun
    (by rw [List.flatMap_append, Segment.flatMap_ofParts, ← htrims.split, hsource])
  rwa [Segment.extend_nil] at hlaid

end

/-! ### The tokens of no run -/

/-- A token is one of those of a run of text. -/
def OfTextRun (source : List Char) (t : Token) : Prop :=
  ∃ closes opens before text after left kept right, TextRun source closes opens before text after ∧
    Trims closes opens text left kept right ∧ t ∈ partTokens (.reached before) left kept right

theorem TextRun.ofTextRun {source before text after : List Char} {closes opens : Bool}
    (h : TextRun source closes opens before text after) {t : Token}
    (ht : t ∈ textTokens closes opens text (.reached before)) : OfTextRun source t := by
  obtain ⟨left, kept, right, htrims, htokens⟩ := exists_trims closes opens text
  rw [htokens] at ht
  exact ⟨_, _, _, _, _, left, kept, right, h, htrims, ht⟩

theorem Stands.ofTextRun {source before cs text hyphen body : List Char} {site : Site} {trim : Bool} {p : Position}
    {mark : Char} (h : Stands source site before (.outside trim) cs p)
    (hmark : mark = '#' ∨ ∃ kind close, (mark, kind, close) ∈ tagMarks)
    (hopening : FirstOpening cs text mark hyphen body) {t : Token} (ht : t ∈ textTokens trim (!hyphen.isEmpty) text p) :
    OfTextRun source t := by
  obtain rfl := h.outside
  obtain rfl := hopening.split
  rw [← h.place] at ht
  exact (TextRun.between h.cut h.split hmark hopening).ofTextRun ht

/-- Only the tokens of runs of text stand for text. The induction is on how the rest of the source is cut. -/
theorem Munched.ofTextRun {mode : ScanMode} {cs : List Char} {p : Position} {result : Except TemplateError (List Token)}
    (h : Munched mode cs p result) {source before : List Char} {site : Site}
    (hstands : Stands source site before mode cs p) {tokens : List Token} (hresult : result = .ok tokens) {t : Token}
    (ht : t ∈ tokens) (hraw : t.isRaw = true) : OfTextRun source t := by
  have hother : ∀ {kind : TokenKind} {found : String} {q : Position}, kind ≠ .text ∧ kind ≠ .trimmedWhitespace →
      t ≠ ⟨kind, found, q⟩ := by
    rintro kind found q hkind rfl
    simp [Token.isRaw, hkind] at hraw
  induction h generalizing site before tokens with
  | ends hnothing =>
    obtain rfl := hstands.outside
    cases hresult
    rcases List.mem_append.mp ht with ht | ht
    · rw [← hstands.place] at ht
      exact (TextRun.last hstands.cut hstands.split hnothing).ofTextRun ht
    · exact absurd (List.mem_singleton.mp ht) (hother (by decide))
  | openComment | unclosed | fault | unexpected | wrongClose => cases hresult
  | comment hopening hinner _ ih =>
    obtain ⟨tokens, hmore, rfl⟩ := map_eq_ok_iff.mp hresult
    rcases List.mem_append.mp ht with ht | ht
    · exact hstands.ofTextRun (.inl rfl) hopening ht
    · rcases List.mem_cons.mp ht with ht | ht
      · exact absurd ht (hother (by decide))
      · exact ih (hstands.comment hopening hinner) hmore ht
  | opened hmark hopening _ ih =>
    have hmarks : ∀ m ∈ tagMarks, m.2.1 ≠ .text ∧ m.2.1 ≠ .trimmedWhitespace := by decide
    obtain ⟨tokens, hmore, rfl⟩ := map_eq_ok_iff.mp hresult
    rcases List.mem_append.mp ht with ht | ht
    · exact hstands.ofTextRun (.inr ⟨_, _, hmark⟩) hopening ht
    · rcases List.mem_cons.mp ht with ht | ht
      · exact absurd ht (hother (hmarks _ hmark))
      · exact ih (hstands.opened hmark hopening) hmore ht
  | gap hgap _ ih => exact ih (hstands.gap hgap) hresult ht
  | closed htaken hclose _ ih =>
    obtain ⟨tokens, hmore, rfl⟩ := map_eq_ok_iff.mp hresult
    rcases List.mem_cons.mp ht with ht | ht
    · refine absurd ht (hother ?_)
      rcases TokenKind.isClose_iff.mp hclose with hkind | hkind <;> rw [hkind] <;> decide
    · exact ih (hstands.closed htaken hclose) hmore ht
  | token htaken hclose _ ih =>
    obtain ⟨tokens, hmore, rfl⟩ := map_eq_ok_iff.mp hresult
    rcases List.mem_cons.mp ht with ht | ht
    · have hinner := htaken.spelled.inner_or_close.resolve_right (Bool.eq_false_iff.mp hclose)
      refine absurd ht (hother ⟨?_, ?_⟩) <;>
      · rintro rfl
        cases hinner
    · exact ih (hstands.token htaken hclose) hmore ht

/-- Whitespace control is exact. Where a source is cut into tokens, all the text between two tags or comments, or
    between one of them and an end of the source, stands for the tokens of its parts: the blanks dropped at its start if
    what stands right before it ends with a hyphen, what is kept, and the blanks dropped at its end if what stands right
    after it opens with a hyphen, with no token for a part that is empty. What stands before it and what stands after it
    are cut into the other tokens. No token stands for other text or for other blanks. -/
theorem whitespace_control_is_exact {source : String} {tokens : List Token} (h : Token.scan source = .ok tokens) :
    (∀ closes opens before text after, TextRun source.toList closes opens before text after →
      ∃ front back left kept right, Trims closes opens text left kept right ∧
        Laid none .start (front ++ (Segment.ofParts (.reached before) left kept right ++ back)) ∧
        front.flatMap Segment.chars = before ∧ back.flatMap Segment.chars = after ∧
        tokens = front.map (·.token) ++ (partTokens (.reached before) left kept right ++ back.map (·.token))) ∧
    ∀ t ∈ tokens, t.isRaw = true →
      ∃ closes opens before text after left kept right, TextRun source.toList closes opens before text after ∧
        Trims closes opens text left kept right ∧ t ∈ partTokens (.reached before) left kept right := by
  rw [Token.scan_eq] at h
  exact ⟨fun _ _ _ _ _ hrun => hrun.laid h, fun t ht hraw => (munched_scanFrom _ _ _).ofTextRun (.start _) h ht hraw⟩

/-- Blanks between a comment and a tag, which both ask to drop them, and a hyphen that another tag stands right after. -/
theorem whitespace_control_is_exact_between_hyphens :
    let source := "a\n\x7b#- b -#\x7d \t\x7b%- x -%\x7d\x7b\x7b y \x7d\x7d c"
    let blanks : Token := ⟨.trimmedWhitespace, " \t", ⟨2, 10⟩⟩
    let tokens : List Token :=
      [⟨.text, "a", ⟨1, 1⟩⟩, ⟨.trimmedWhitespace, "\n", ⟨1, 2⟩⟩, ⟨.comment, "\x7b#- b -#\x7d", ⟨2, 1⟩⟩, blanks,
        ⟨.stmtOpen, "\x7b%-", ⟨2, 12⟩⟩, ⟨.identifier, "x", ⟨2, 16⟩⟩, ⟨.stmtClose, "-%\x7d", ⟨2, 18⟩⟩,
        ⟨.exprOpen, "\x7b\x7b", ⟨2, 21⟩⟩, ⟨.identifier, "y", ⟨2, 24⟩⟩, ⟨.exprClose, "\x7d\x7d", ⟨2, 26⟩⟩,
        ⟨.text, " c", ⟨2, 28⟩⟩, ⟨.eof, "", ⟨2, 30⟩⟩]
    let before := "a\n\x7b#- b -#\x7d".toList
    let after := "\x7b%- x -%\x7d\x7b\x7b y \x7d\x7d c".toList
    TextRun source.toList true true before [' ', '\t'] after ∧ Token.scan source = .ok tokens ∧
      (∃ front back left kept right, Trims true true [' ', '\t'] left kept right ∧
        Laid none .start (front ++ (Segment.ofParts (.reached before) left kept right ++ back)) ∧
        front.flatMap Segment.chars = before ∧ back.flatMap Segment.chars = after ∧
        tokens = front.map (·.token) ++ (partTokens (.reached before) left kept right ++ back.map (·.token))) ∧
      OfTextRun source.toList blanks := by
  intro source blanks tokens before after
  have hcut : Cut source.toList (.outside true) before := by
    have hopening : FirstOpening source.toList ['a', '\n'] '#' ['-']
        ([' ', 'b', ' ', '-'] ++ ['#', '}'] ++ [' ', '\t'] ++ after) :=
      ⟨by decide, by decide, .inl rfl⟩
    have hinner : ¬['#', '}'] <:+: [' ', 'b', ' ', '-'] := by decide
    rw [List.append_assoc _ [' ', '\t'] after] at hopening
    exact .comment .start rfl hopening hinner
  have hrun : TextRun source.toList true true before [' ', '\t'] after :=
    .between hcut (by decide) (.inr ⟨.stmtOpen, .stmtClose, by decide⟩) ⟨rfl, by decide, .inl rfl⟩
  have hscan : Token.scan source = .ok tokens := by cbv
  obtain ⟨hruns, hothers⟩ := whitespace_control_is_exact hscan
  exact ⟨hrun, hscan, hruns _ _ _ _ _ hrun, hothers blanks (by decide) rfl⟩

end TemplatedSql
