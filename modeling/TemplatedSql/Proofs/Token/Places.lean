import TemplatedSql.Proofs.Token.Reach

/-! # Tokens and errors are placed where they stand

A locator gives the true position of every place, in whatever order the places are asked for. So a token starts where
its segment of the source does, and an error is reported where the text at fault stands, or where the tag or comment
opens that is not closed. -/

namespace TemplatedSql

/-! ### Questions in any order -/

/-- The answers to questions that are asked one after the other. -/
def Locator.locateAll (l : Locator) : List Nat → List Position
  | [] => []
  | offset :: offsets => (l.locate offset).1 :: (l.locate offset).2.locateAll offsets

/-- Whatever was asked for before, a place is found where the text before it ends. -/
theorem Locator.Serves.locateAll {l : Locator} {source : List Char} (h : l.Serves source) {places : List (List Char)}
    (hplaces : ∀ before ∈ places, before <+: source) :
    l.locateAll (places.map Text.byteCount) = places.map .reached := by
  induction places generalizing l with
  | nil => rfl
  | cons before places ih =>
    obtain ⟨⟨rest, hsplit⟩, hothers⟩ := List.forall_mem_cons.mp hplaces
    obtain ⟨hposition, hserves⟩ := h.locate hsplit
    rw [List.map_cons, Locator.locateAll, hposition, ih hserves hothers, List.map_cons, Position.start_after]

/-! ### Tokens -/

/-- A segment is the first one, or stands among the segments after it. -/
theorem Segment.start_of_cons {first s : Segment} {front back rest : List Segment} {p : Position}
    (hfirst : first.token.start = p.after first.gap)
    (hlater : ∀ {front : List Segment}, rest = front ++ s :: back →
      s.token.start = (p.after first.chars).after (front.flatMap Segment.chars ++ s.gap))
    (h : first :: rest = front ++ s :: back) : s.token.start = p.after (front.flatMap Segment.chars ++ s.gap) := by
  obtain ⟨rfl, hs⟩ | ⟨front, rfl, hs⟩ := List.cons_eq_append_iff.mp h
  · cases hs
    exact hfirst
  · rw [hlater hs, ← Position.after_append, List.flatMap_cons, List.append_assoc]

theorem Laid.start_eq {close : Option TokenKind} {p : Position} {segments : List Segment} (h : Laid close p segments)
    {front back : List Segment} {s : Segment} (hsegments : segments = front ++ s :: back) :
    s.token.start = p.after (front.flatMap Segment.chars ++ s.gap) := by
  induction h generalizing front with
  | eof => exact Segment.start_of_cons rfl (fun hs => by simp at hs) hsegments
  | text _ _ _ ih | blanks _ _ _ ih | comment _ _ _ _ ih | opened _ _ _ _ ih | inner _ _ _ _ ih | closed _ _ _ _ ih =>
    exact Segment.start_of_cons rfl ih hsegments

/-- The last token marks where the source ends. -/
theorem Laid.getLast? {close : Option TokenKind} {p : Position} {segments : List Segment} (h : Laid close p segments) :
    (segments.map (·.token)).getLast? = some ⟨.eof, "", p.after (segments.flatMap Segment.chars)⟩ := by
  induction h with
  | eof => rfl
  | text _ _ _ ih | blanks _ _ _ ih | comment _ _ _ _ ih | opened _ _ _ _ ih | inner _ _ _ _ ih | closed _ _ _ _ ih =>
    rw [List.map_cons, List.getLast?_cons, ih]
    simp [Segment.chars, Position.after_append]

/-! ### Errors -/

/-- Why a source cannot be cut into tokens, and at which place. -/
inductive Breaks (source : List Char) : LexFault → List Char → Prop
  /-- At the opening of a comment that nothing ends. -/
  | comment {trim before rest text hyphen body} (h : Cut source (.outside trim) before)
    (hsource : before ++ rest = source) (hopening : FirstOpening rest text '#' hyphen body)
    (hbody : EndsNoComment body) : Breaks source .unterminatedComment (before ++ text)
  /-- At the opening of a tag that the source ends in. -/
  | tag {close opened} (h : Cut source (.inside close opened) source) : Breaks source (.unterminatedTag close) opened
  /-- At a closing that does not fit the opening. -/
  | close {close opened before raw rest found} {kind : TokenKind} (h : Cut source (.inside close opened) before)
    (hsource : before ++ (raw ++ rest) = source) (htaken : Taken (raw ++ rest) raw (.ok (kind, found)))
    (hkind : kind.isClose = true) (hne : kind ≠ close) :
    Breaks source (.wrongClose close (.reached opened) found) before
  /-- At the longest match in a tag, if that makes no token. -/
  | token {close opened before rest raw fault} (h : Cut source (.inside close opened) before)
    (hsource : before ++ rest = source) (htaken : Taken rest raw (.error fault)) : Breaks source fault before
  /-- At a character in a tag that no match starts with. -/
  | unexpected {close opened before c cs} (h : Cut source (.inside close opened) before)
    (hsource : before ++ c :: cs = source) (hgap : isGap c = false)
    (hnone : ∀ pattern ∈ patterns, ∀ text ∈ pattern.language, ¬text <+: c :: cs) :
    Breaks source (.unexpected c) before

theorem Cut.opened_prefix {source before : List Char} {site : Site} (h : Cut source site before) {close : TokenKind}
    {opened : List Char} (hsite : site = .inside close opened) : opened <+: source := by
  induction h with
  | start | comment | closed => cases hsite
  | opened _ hsource _ hopening =>
    cases hsite
    rw [← hsource, hopening.split, ← List.append_assoc]
    exact List.prefix_append _ _
  | gap _ _ ih | inner _ _ _ _ ih => exact ih hsite

theorem Breaks.place_prefix {source place : List Char} {fault : LexFault} (h : Breaks source fault place) :
    place <+: source := by
  cases h with
  | comment _ hsource hopening =>
    rw [← hsource, hopening.split, ← List.append_assoc]
    exact List.prefix_append _ _
  | tag h => exact h.opened_prefix rfl
  | close _ hsource | token _ hsource | unexpected _ hsource => exact ⟨_, hsource⟩

/-- Where a source breaks, cutting it fails. -/
theorem Breaks.munched {source place : List Char} {fault : LexFault} (h : Breaks source fault place) :
    Munched (.outside false) source .start (fault.throw (.reached place)) := by
  cases h with
  | comment h hsource hopening hbody =>
    obtain ⟨front, gap, hfronts⟩ := h.fronts
    rw [Position.reached_append]
    exact hfronts.munched _ _ hsource (.openComment hopening hbody)
  | tag h =>
    obtain ⟨front, gap, hfronts⟩ := h.fronts
    exact hfronts.munched _ _ (List.append_nil _) .unclosed
  | close h hsource htaken hkind hne =>
    obtain ⟨front, gap, hfronts⟩ := h.fronts
    exact hfronts.munched _ _ hsource (.wrongClose htaken hkind hne)
  | token h hsource htaken =>
    obtain ⟨front, gap, hfronts⟩ := h.fronts
    exact hfronts.munched _ _ hsource (.fault htaken)
  | unexpected h hsource hgap hnone =>
    obtain ⟨front, gap, hfronts⟩ := h.fronts
    exact hfronts.munched _ _ hsource (.unexpected hgap hnone)

/-- Cutting on from a place that a source can be cut up to fails where the source breaks. The induction is on how the
    rest is cut. -/
theorem Munched.breaks {mode : ScanMode} {cs : List Char} {p : Position} {result : Except TemplateError (List Token)}
    (h : Munched mode cs p result) {source before : List Char} {site : Site}
    (hstands : Stands source site before mode cs p) {e : TemplateError} (he : result = .error e) :
    ∃ fault place, Breaks source fault place ∧ e = ⟨.reached place, .lex fault.reason⟩ := by
  induction h generalizing site before with
  | ends => cases he
  | openComment hopening hbody =>
    obtain rfl := hstands.outside
    cases he
    rw [← hstands.place, ← Position.reached_append]
    exact ⟨_, _, .comment hstands.cut hstands.split hopening hbody, rfl⟩
  | comment hopening hinner _ ih => exact ih (hstands.comment hopening hinner) (map_eq_error_iff.mp he)
  | opened hmark hopening _ ih => exact ih (hstands.opened hmark hopening) (map_eq_error_iff.mp he)
  | unclosed =>
    obtain ⟨opened, rfl, hopened⟩ := hstands.inside
    have hcut := hstands.cut
    rw [← hstands.split, List.append_nil] at hcut ⊢
    cases he
    exact ⟨_, _, .tag hcut, by rw [hopened]⟩
  | gap hgap _ ih => exact ih (hstands.gap hgap) he
  | fault htaken =>
    obtain ⟨opened, rfl, -⟩ := hstands.inside
    cases he
    exact ⟨_, _, .token hstands.cut hstands.split htaken, by rw [hstands.place]⟩
  | unexpected hgap hnone =>
    obtain ⟨opened, rfl, -⟩ := hstands.inside
    cases he
    exact ⟨_, _, .unexpected hstands.cut hstands.split hgap hnone, by rw [hstands.place]⟩
  | wrongClose htaken hclose hne =>
    obtain ⟨opened, rfl, hopened⟩ := hstands.inside
    cases he
    exact ⟨_, _, .close hstands.cut hstands.split htaken hclose hne, by rw [hstands.place, hopened]⟩
  | closed htaken hclose _ ih => exact ih (hstands.closed htaken hclose) (map_eq_error_iff.mp he)
  | token htaken hclose _ ih => exact ih (hstands.token htaken hclose) (map_eq_error_iff.mp he)

/-- Positions are true. A place has one more line than there are line feeds before it, and one more column than there
    are characters since the last of them. A locator finds every place there, whichever order the places are asked for
    in. Every token starts where its segment of the source does, and the last one where the source ends. Cutting a source
    fails just where it breaks: at the text that is no token or no fitting closing, or where the tag or the comment opens
    that is not closed. -/
theorem positions_are_true (source : String) :
    (∀ places : List (List Char), (∀ before ∈ places, before <+: source.toList) →
      (Locator.ofSource source.toList).locateAll (places.map Text.byteCount) = places.map .reached) ∧
    (∀ tokens, Token.scan source = .ok tokens → ∃ segments, Laid none .start segments ∧
      segments.flatMap Segment.chars = source.toList ∧ segments.map (·.token) = tokens ∧
      (∀ front s back, segments = front ++ s :: back →
        s.token.start = .reached (front.flatMap Segment.chars ++ s.gap)) ∧
      tokens.getLast? = some ⟨.eof, "", .reached source.toList⟩) ∧
    (∀ e, Token.scan source = .error e ↔
      ∃ fault place, Breaks source.toList fault place ∧ place <+: source.toList ∧
        e = ⟨.reached place, .lex fault.reason⟩) := by
  refine ⟨fun places hplaces => (Locator.serves_ofSource _).locateAll hplaces, fun tokens h => ?_, fun e => ?_⟩
  · obtain ⟨segments, hlaid, hchars, rfl⟩ := Token.scan_laid h
    refine ⟨segments, hlaid, hchars, rfl, fun front s back hsegments => ?_, ?_⟩
    · rw [hlaid.start_eq hsegments, Position.start_after]
    · rw [hlaid.getLast?, hchars, Position.start_after]
  · rw [Token.scan_eq]
    constructor
    · intro h
      obtain ⟨fault, place, hbreaks, he⟩ := (munched_scanFrom _ _ _).breaks (.start _) h
      exact ⟨fault, place, hbreaks, hbreaks.place_prefix, he⟩
    · rintro ⟨fault, place, hbreaks, -, rfl⟩
      exact hbreaks.munched.scanFrom_eq

/-- Places of a source with a long character and a line feed, asked for there and back; and the tag on its second line
    that the source ends in. -/
theorem positions_are_true_past_line_feed :
    let source := "é\n\x7b\x7b "
    let e : TemplateError := ⟨⟨2, 1⟩, .lex (LexFault.unterminatedTag .exprClose).reason⟩
    (Locator.ofSource source.toList).locateAll [3, 6, 2, 0] = [⟨2, 1⟩, ⟨2, 4⟩, ⟨1, 2⟩, ⟨1, 1⟩] ∧
    Token.scan source = .error e ∧
    ∃ fault place, Breaks source.toList fault place ∧ place <+: source.toList ∧
      e = ⟨.reached place, .lex fault.reason⟩ := by
  intro source e
  have hopens : Opens source.toList ['é', '\n'] '{' [] [' '] := ⟨by decide, by decide, rfl⟩
  have hscan : Token.scan source = .error e := by
    have hmark : ('{', TokenKind.exprOpen, TokenKind.exprClose) ∈ tagMarks := by decide
    have hgap : isGap ' ' = true := by decide
    rw [Token.scan_eq, scanFrom_tag hmark hopens, scanFrom, if_pos hgap, scanFrom]
    rfl
  have htrue := positions_are_true source
  refine ⟨?_, hscan, (htrue.2.2 _).mp hscan⟩
  have hplaces := htrue.1 [['é', '\n'], source.toList, ['é'], []] (by decide)
  have hoffsets : [['é', '\n'], source.toList, ['é'], []].map Text.byteCount = [3, 6, 2, 0] := by decide
  rw [hoffsets] at hplaces
  exact hplaces.trans (by decide)

end TemplatedSql
