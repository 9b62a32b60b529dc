import TemplatedSql.Proofs.Except
import TemplatedSql.Proofs.Token.Openings
import TemplatedSql.Proofs.Token.Pattern

/-! # Maximal munch

Inside a tag, white space apart, the token taken is always the longest match at the place. The first closing that is
taken so ends the tag, or is an error if it closes another kind of tag. This is all that scanning does there: said as
rules, it gives one result for every source, and scanning gives the same. -/

namespace TemplatedSql

/-! ### Rules -/

/-- The result of cutting the rest of a source, which starts at a position, into tokens. -/
inductive Munched : ScanMode → List Char → Position → Except TemplateError (List Token) → Prop
  /-- Outside tags the rest may be text. -/
  | ends {trim cs p} (h : OpensNothing cs) :
    Munched (.outside trim) cs p (.ok (textTokens trim false cs p ++ [⟨.eof, "", p.after cs⟩]))
  /-- A comment may open that nothing ends. -/
  | openComment {trim cs p text hyphen body} (hopening : FirstOpening cs text '#' hyphen body)
    (hbody : EndsNoComment body) : Munched (.outside trim) cs p (LexFault.unterminatedComment.throw (p.after text))
  /-- A comment may open that ends. -/
  | comment {trim cs p text hyphen inner more result}
    (hopening : FirstOpening cs text '#' hyphen (inner ++ ['#', '}'] ++ more)) (hinner : EndsNoComment inner)
    (h : Munched (.outside (inner.getLast? = some '-')) more
      ((p.after text).after ('{' :: '#' :: (hyphen ++ inner ++ ['#', '}']))) result) :
    Munched (.outside trim) cs p (result.map (textTokens trim (!hyphen.isEmpty) text p ++
      ⟨.comment, .ofList ('{' :: '#' :: (hyphen ++ inner ++ ['#', '}'])), p.after text⟩ :: ·))
  /-- A tag may open. -/
  | opened {trim cs p text mark hyphen body kind close result} (hmark : (mark, kind, close) ∈ tagMarks)
    (hopening : FirstOpening cs text mark hyphen body)
    (h : Munched (.inside ⟨close, p.after text⟩) body ((p.after text).after ('{' :: mark :: hyphen)) result) :
    Munched (.outside trim) cs p (result.map (textTokens trim (!hyphen.isEmpty) text p ++
      ⟨kind, .ofList ('{' :: mark :: hyphen), p.after text⟩ :: ·))
  /-- Inside a tag the source must not end. -/
  | unclosed {tag p} : Munched (.inside tag) [] p ((LexFault.unterminatedTag tag.close).throw tag.start)
  /-- White space is skipped. -/
  | gap {tag c cs p result} (hgap : isGap c = true) (h : Munched (.inside tag) cs (p.next c) result) :
    Munched (.inside tag) (c :: cs) p result
  /-- The longest match may be at fault. -/
  | fault {tag cs raw fault p} (h : Taken cs raw (.error fault)) : Munched (.inside tag) cs p (fault.throw p)
  /-- There may be no match. -/
  | unexpected {tag c cs p} (hgap : isGap c = false)
    (hnone : ∀ pattern ∈ patterns, ∀ text ∈ pattern.language, ¬text <+: c :: cs) :
    Munched (.inside tag) (c :: cs) p ((LexFault.unexpected c).throw p)
  /-- The longest match may close another kind of tag. -/
  | wrongClose {tag raw rest kind text p} (htaken : Taken (raw ++ rest) raw (.ok (kind, text)))
    (hclose : kind.isClose = true) (hne : kind ≠ tag.close) :
    Munched (.inside tag) (raw ++ rest) p ((LexFault.wrongClose tag.close tag.start text).throw p)
  /-- It may close the tag. -/
  | closed {tag raw rest text p result} (htaken : Taken (raw ++ rest) raw (.ok (tag.close, text)))
    (hclose : tag.close.isClose = true)
    (h : Munched (.outside (raw.head? = some '-')) rest (p.after raw) result) :
    Munched (.inside tag) (raw ++ rest) p (result.map (⟨tag.close, text, p⟩ :: ·))
  /-- It may be another token of the tag. -/
  | token {tag raw rest kind text p result} (htaken : Taken (raw ++ rest) raw (.ok (kind, text)))
    (hclose : kind.isClose = false) (h : Munched (.inside tag) rest (p.after raw) result) :
    Munched (.inside tag) (raw ++ rest) p (result.map (⟨kind, text, p⟩ :: ·))

/-! ### What stands next -/

section Outside
variable {cs text hyphen body : List Char} {mark : Char}

theorem Marker.opens_of_ofText? (h : (Marker.ofText? cs).isSome = true) :
    ∃ opening ∈ [['{', '{'], ['{', '%'], ['{', '#']], opening.length = 2 ∧ opening <+: cs := by
  obtain ⟨mark, rest, rfl, hmark⟩ := Marker.ofText?_eq_some h
  refine ⟨['{', mark], ?_, rfl, ⟨rest, rfl⟩⟩
  rcases Marker.eq_of_ofChar? hmark with rfl | ⟨kind, close, hmark⟩
  · simp
  · simp only [tagMarks, List.mem_cons, Prod.mk.injEq, List.not_mem_nil, or_false] at hmark
    rcases hmark with ⟨rfl, -⟩ | ⟨rfl, -⟩ <;> simp

theorem textSize_of_opensNothing (h : OpensNothing (text ++ ['{'])) (hmark : (Marker.ofChar? mark).isSome = true) :
    textSize (text ++ '{' :: mark :: body) = text.length := by
  induction text with
  | nil => exact if_pos hmark
  | cons c text ih =>
    have hnone : ¬(Marker.ofText? (c :: (text ++ '{' :: mark :: body))).isSome = true := by
      intro hsome
      obtain ⟨opening, hopening, hlength, hinitial⟩ := Marker.opens_of_ofText? hsome
      have hstart : c :: text ++ ['{'] <+: c :: (text ++ '{' :: mark :: body) := ⟨mark :: body, by simp⟩
      have hwithin := List.prefix_of_prefix_length_le hinitial hstart (by rw [hlength]; simp)
      exact h opening hopening hwithin.isInfix
    have htext : OpensNothing (text ++ ['{']) := h.of_infix (List.infix_cons (List.infix_refl _))
    rw [List.cons_append, textSize, if_neg hnone, ih htext, List.length_cons]

theorem opensNothing_of_drop_textSize (h : cs.drop (textSize cs) = []) : OpensNothing cs := by
  have hnothing := opensNothing_take_textSize cs
  rw [List.take_of_length_le (List.drop_eq_nil_iff.mp h)] at hnothing
  exact hnothing

/-- What is said to open first does. -/
theorem FirstOpening.opens (h : FirstOpening cs text mark hyphen body) (hmark : (Marker.ofChar? mark).isSome = true) :
    Opens cs text mark hyphen body := by
  have hsize : textSize cs = text.length := h.split ▸ textSize_of_opensNothing h.first hmark
  refine ⟨by rw [hsize, h.split, List.take_left], by rw [hsize, h.split, List.drop_left], ?_⟩
  rcases h.hyphen with rfl | ⟨rfl, hhead⟩
  · rfl
  · rw [List.nil_append, if_neg hhead, List.take_zero]

theorem drop_textSize_of_opensNothing (h : OpensNothing cs) : cs.drop (textSize cs) = [] := by
  rcases drop_textSize cs with hend | ⟨mark, rest, hdrop, hmark⟩
  · exact hend
  · have hsome : (Marker.ofText? (cs.drop (textSize cs))).isSome = true := by
      rw [hdrop]
      exact hmark
    obtain ⟨opening, hopening, -, hinitial⟩ := Marker.opens_of_ofText? hsome
    exact absurd (hinitial.isInfix.trans (List.drop_suffix _ cs).isInfix) (h opening hopening)

theorem commentSize?_of_endsNoComment {inner : List Char} (h : EndsNoComment inner) (more : List Char) :
    commentSize? (inner ++ ['#', '}'] ++ more) = some inner.length := by
  induction inner with
  | nil => rfl
  | cons c inner ih =>
    have hnone : ¬['#', '}'].isPrefixOf (c :: (inner ++ ['#', '}'] ++ more)) = true := by
      intro hends
      have hinitial := List.isPrefixOf_iff_prefix.mp hends
      cases inner with
      | nil => simp at hinitial
      | cons d inner =>
        have hstart : c :: d :: inner <+: c :: (d :: inner ++ ['#', '}'] ++ more) := ⟨['#', '}'] ++ more, by simp⟩
        exact h (List.prefix_of_prefix_length_le hinitial hstart (by simp)).isInfix
    rw [List.cons_append, List.cons_append, commentSize?, if_neg hnone, ih fun hwithin => h (List.infix_cons hwithin)]
    rfl

theorem commentSize?_of_unended (h : EndsNoComment cs) : commentSize? cs = none := by
  cases hsize : commentSize? cs with
  | none => rfl
  | some n =>
    obtain ⟨inner, more, rfl, -, -⟩ := commentSize?_eq_some hsize
    exact absurd ⟨inner, more, rfl⟩ h

end Outside

section Inside
variable {c : Char} {cs raw rest : List Char} {kind : TokenKind} {text : String} {tag : Opening} {p : Position}

theorem notGap_of_symbol : (symbols.all fun s => s.1.head?.all fun c => !isGap c) = true := rfl

/-- Nothing that is taken starts with white space. -/
theorem Taken.starts {result : Except LexFault (TokenKind × String)} (h : Taken cs raw result) :
    ∃ c rest, cs = c :: rest ∧ isGap c = false := by
  obtain ⟨pattern, hmatch, -⟩ := h
  obtain ⟨c, part, rfl, hmatches⟩ := Pattern.matches_of_mem hmatch.mem hmatch.fits
  obtain ⟨rest, rfl⟩ := hmatch.start
  refine ⟨c, part ++ rest, rfl, ?_⟩
  cases hmatches with
  | keyword hstart | identifier hstart => exact isGap_eq_false (by decide) hstart
  | number hstart => exact isGap_eq_false (by decide) hstart
  | string hquote | unterminated hquote => rcases hquote with rfl | rfl <;> rfl
  | symbol _ h => simpa using List.all_eq_true.mp notGap_of_symbol _ h

theorem scanFrom_gap (hgap : isGap c = true) :
    scanFrom (.inside tag) (c :: cs) p = scanFrom (.inside tag) cs (p.next c) := by
  rw [scanFrom, if_pos hgap]

theorem scanFrom_fault {fault : LexFault} (h : Taken cs raw (.error fault)) :
    scanFrom (.inside tag) cs p = fault.throw p := by
  obtain ⟨c, rest, rfl, hgap⟩ := h.starts
  rw [scanFrom, if_neg (Bool.eq_false_iff.mp hgap)]
  cases hlexeme : lexeme c rest with
  | ok l => cases (h.unique (taken_of_lexeme hlexeme)).2
  | error fault' =>
    rcases taken_of_lexeme_error hlexeme with ⟨raw', htaken⟩ | ⟨-, hnone⟩
    · cases (h.unique htaken).2
      rfl
    · obtain ⟨pattern, hmatch, -⟩ := h
      exact absurd hmatch.start (hnone pattern hmatch.mem raw hmatch.fits)

theorem scanFrom_unexpected (hgap : isGap c = false)
    (hnone : ∀ pattern ∈ patterns, ∀ text ∈ pattern.language, ¬text <+: c :: cs) :
    scanFrom (.inside tag) (c :: cs) p = (LexFault.unexpected c).throw p := by
  have hnothing {raw : List Char} {result : Except LexFault (TokenKind × String)} : ¬Taken (c :: cs) raw result := by
    rintro ⟨pattern, hmatch, -⟩
    exact hnone pattern hmatch.mem raw hmatch.fits hmatch.start
  rw [scanFrom, if_neg (Bool.eq_false_iff.mp hgap)]
  cases hlexeme : lexeme c cs with
  | ok l => exact absurd (taken_of_lexeme hlexeme) hnothing
  | error fault =>
    rcases taken_of_lexeme_error hlexeme with ⟨raw, htaken⟩ | ⟨rfl, -⟩
    · exact absurd htaken hnothing
    · rfl

theorem bind_push_eq_map (result : Except TemplateError (List Token)) (token : Token) :
    (do let tokens ← result; .ok (token :: tokens)) = result.map (token :: ·) := by
  cases result <;> rfl

/-- Scanning takes the longest match and goes on after it, outside the tag if that is its closing. -/
theorem scanFrom_taken (h : Taken (raw ++ rest) raw (.ok (kind, text))) : scanFrom (.inside tag) (raw ++ rest) p =
    if kind.isClose then
      if kind = tag.close then
        (scanFrom (.outside (raw.head? = some '-')) rest (p.after raw)).map (⟨kind, text, p⟩ :: ·)
      else (LexFault.wrongClose tag.close tag.start text).throw p
    else (scanFrom (.inside tag) rest (p.after raw)).map (⟨kind, text, p⟩ :: ·) := by
  obtain ⟨c, cs, hcs, hgap⟩ := h.starts
  rw [hcs] at h ⊢
  conv_lhs => rw [scanFrom, if_neg (Bool.eq_false_iff.mp hgap)]
  cases hlexeme : lexeme c cs with
  | error fault =>
    rcases taken_of_lexeme_error hlexeme with ⟨raw', htaken⟩ | ⟨-, hnone⟩
    · cases (h.unique htaken).2
    · obtain ⟨pattern, hmatch, -⟩ := h
      exact absurd hmatch.start (hnone pattern hmatch.mem raw hmatch.fits)
  | ok l =>
    obtain ⟨rfl, hresult⟩ := h.unique (taken_of_lexeme hlexeme)
    cases hresult
    have hrest : cs.drop l.extra = rest := by
      have hsplit : c :: (cs.take l.extra ++ cs.drop l.extra) = c :: (cs.take l.extra ++ rest) := by
        rw [List.take_append_drop]
        exact hcs.symm
      exact List.append_cancel_left (List.cons_inj_right _ |>.mp hsplit)
    have htrim : (c == '-') = decide ((c :: cs.take l.extra).head? = some '-') := by simp [beq_eq_decide]
    simp only [hrest, htrim, ← TokenKind.isClose_iff, bind_push_eq_map]

end Inside

/-! ### Scanning follows the rules -/

/-- Whatever is cut into tokens, is cut by the rules. The induction is on the length of what is left. -/
theorem munched_scanFrom (cs : List Char) :
    ∀ (mode : ScanMode) (p : Position), Munched mode cs p (scanFrom mode cs p) := by
  induction hn : cs.length using Nat.strong_induction_on generalizing cs with
  | _ n ih =>
    subst hn
    rintro (trim | tag) p
    · rcases exists_opens cs with hend | ⟨text, mark, hyphen, body, hopens, hmark⟩
      · rw [scanFrom_end hend]
        exact .ends (opensNothing_of_drop_textSize hend)
      · have hlength : body.length < cs.length := by
          rw [hopens.split]
          simp only [List.length_append, List.length_cons]
          omega
        rcases hmark with rfl | ⟨kind, close, hmark⟩
        · cases hsize : commentSize? body with
          | none =>
            rw [scanFrom_comment hopens, hsize]
            exact .openComment hopens.firstOpening (commentSize?_eq_none hsize)
          | some n =>
            obtain ⟨inner, more, rfl, rfl, hinner⟩ := commentSize?_eq_some hsize
            have hmore : more.length ≤ (inner ++ ['#', '}'] ++ more).length := (List.suffix_append _ more).length_le
            rw [scanFrom_closed_comment hopens hsize]
            exact .comment hopens.firstOpening hinner (ih _ (hmore.trans_lt hlength) more rfl _ _)
        · rw [scanFrom_tag hmark hopens]
          exact .opened hmark hopens.firstOpening (ih _ hlength body rfl _ _)
    · cases cs with
      | nil =>
        rw [scanFrom]
        exact .unclosed
      | cons c rest =>
        by_cases hgap : isGap c = true
        · rw [scanFrom_gap hgap]
          exact .gap hgap (ih _ (Nat.lt_succ_self _) rest rfl _ _)
        · cases hlexeme : lexeme c rest with
          | error fault =>
            rcases taken_of_lexeme_error hlexeme with ⟨raw, htaken⟩ | ⟨-, hnone⟩
            · rw [scanFrom_fault htaken]
              exact .fault htaken
            · rw [scanFrom_unexpected (Bool.eq_false_iff.mpr hgap) hnone]
              exact .unexpected (Bool.eq_false_iff.mpr hgap) hnone
          | ok l =>
            have htaken := taken_of_lexeme hlexeme
            have hsplit : c :: rest = c :: rest.take l.extra ++ rest.drop l.extra := by
              rw [List.cons_append, List.take_append_drop]
            have hlength : (rest.drop l.extra).length < (c :: rest).length :=
              (List.drop_sublist _ _).length_le.trans_lt (Nat.lt_succ_self _)
            generalize c :: rest.take l.extra = raw at htaken hsplit
            rw [hsplit] at htaken ⊢
            rw [scanFrom_taken htaken]
            split
            · rename_i hclose
              split
              · rename_i hkind
                rw [hkind] at htaken hclose ⊢
                exact .closed htaken hclose (ih _ hlength _ rfl _ _)
              · rename_i hne
                exact .wrongClose htaken hclose hne
            · rename_i hclose
              exact .token htaken (Bool.eq_false_iff.mpr hclose) (ih _ hlength _ rfl _ _)

/-- The rules leave no choice. -/
theorem Munched.scanFrom_eq {mode : ScanMode} {cs : List Char} {p : Position}
    {result : Except TemplateError (List Token)} (h : Munched mode cs p result) : scanFrom mode cs p = result := by
  induction h with
  | ends h => exact scanFrom_end (drop_textSize_of_opensNothing h)
  | openComment hopening hbody => rw [scanFrom_comment (hopening.opens rfl), commentSize?_of_unended hbody]
  | comment hopening hinner _ ih =>
    rw [scanFrom_closed_comment (hopening.opens rfl) (commentSize?_of_endsNoComment hinner _), ih]
  | opened hmark hopening _ ih =>
    have hmarks : ∀ m ∈ tagMarks, (Marker.ofChar? m.1).isSome = true := by decide
    rw [scanFrom_tag hmark (hopening.opens (hmarks _ hmark)), ih]
  | unclosed => rw [scanFrom]
  | gap hgap _ ih => rw [scanFrom_gap hgap, ih]
  | fault h => exact scanFrom_fault h
  | unexpected hgap hnone => exact scanFrom_unexpected hgap hnone
  | wrongClose htaken hclose hne => rw [scanFrom_taken htaken, if_pos hclose, if_neg hne]
  | closed htaken hclose _ ih => rw [scanFrom_taken htaken, if_pos hclose, if_pos rfl, ih]
  | token htaken hclose _ ih => rw [scanFrom_taken htaken, if_neg (Bool.eq_false_iff.mp hclose), ih]

/-! ### What is taken, by its first character -/

section Taken
variable {c : Char} {cs raw : List Char} {result : Except LexFault (TokenKind × String)}

theorem Taken.iff {raw' : List Char} {result' : Except LexFault (TokenKind × String)}
    (h : Taken (c :: cs) raw' result') : Taken (c :: cs) raw result ↔ raw = raw' ∧ result = result' :=
  ⟨fun htaken => htaken.unique h, fun ⟨hraw, hresult⟩ => hraw ▸ hresult ▸ h⟩

theorem Pattern.Gives.isClose {pattern : Pattern} {part : List Char} {kind : TokenKind} {text : String}
    (h : pattern.Gives (c :: part) (.ok (kind, text))) (hmatches : pattern.Matches c part)
    (hc : startsSymbol c = false) : kind.isClose = false := by
  have hkeywords : ∀ k ∈ keywords, k.2.isClose = false := by decide
  cases hmatches with
  | keyword _ _ hmem =>
    cases h
    exact hkeywords _ hmem
  | identifier | number | string =>
    cases h
    rfl
  | unterminated => cases h
  | symbol hstart =>
    rw [hc] at hstart
    cases hstart

/-- What closes a tag is a closing that stands there. -/
theorem Taken.closing {kind : TokenKind} {text : String} (h : Taken cs raw (.ok (kind, text))) :
    (kind = .exprClose ↔ raw = ['}', '}'] ∨ raw = ['-', '}', '}']) ∧
      (kind = .stmtClose ↔ raw = ['%', '}'] ∨ raw = ['-', '%', '}']) := by
  have hsymbols : ∀ s ∈ symbols, (s.2 = .exprClose ↔ s.1 = ['}', '}'] ∨ s.1 = ['-', '}', '}']) ∧
      (s.2 = .stmtClose ↔ s.1 = ['%', '}'] ∨ s.1 = ['-', '%', '}']) := by decide
  obtain ⟨pattern, hmatch, hgives⟩ := h
  obtain ⟨c, part, rfl, hmatches⟩ := Pattern.matches_of_mem hmatch.mem hmatch.fits
  cases hc : startsSymbol c with
  | true =>
    obtain ⟨kind', rfl, hmem⟩ := hmatches.symbols hc
    cases hgives
    exact hsymbols _ hmem
  | false =>
    have hclose := hgives.isClose hmatches hc
    have hother : c ≠ '}' ∧ c ≠ '-' ∧ c ≠ '%' := by
      refine ⟨?_, ?_, ?_⟩ <;> rintro rfl <;> cases hc
    refine ⟨⟨?_, ?_⟩, ⟨?_, ?_⟩⟩
    · rintro rfl
      cases hclose
    · rintro (hraw | hraw) <;> simp [hother] at hraw
    · rintro rfl
      cases hclose
    · rintro (hraw | hraw) <;> simp [hother] at hraw

end Taken

/-- Tags are cut by maximal munch. Scanning a source gives what the rules say, by which inside a tag the longest match
    is taken after white space. A word is taken whole and is a keyword if it is exactly that; digits are taken with all
    that can go on a number, and are at fault where that is none; a string is taken up to the first quote of its own
    that is not escaped, and is at fault where there is none. So a tag is closed by a closing that stands there between
    tokens. -/
theorem tags_are_munched (source : String) :
    (∀ result, Munched (.outside false) source.toList .start result ↔ Token.scan source = result) ∧
    ∀ c cs raw result,
      (IsLetter c → (Taken (c :: cs) raw result ↔ raw = c :: cs.takeWhile isWordPart ∧
        ∃ kind, result = .ok (kind, .ofList raw) ∧
          ((String.ofList raw, kind) ∈ keywords ∨ kind = .identifier ∧ ∀ k ∈ keywords, k.1 ≠ .ofList raw))) ∧
      (IsDigit c → (Taken (c :: cs) raw result ↔ raw = c :: cs.takeWhile isNumberPart ∧
        result = if (Number.ofString? (.ofList raw)).isSome then .ok (.number, .ofList raw)
          else .error (.invalidNumber (.ofList raw)))) ∧
      (c = '"' ∨ c = '\'' →
        (∀ body text, Text.Unescapes c body text → body ++ [c] <+: cs →
          (Taken (c :: cs) raw result ↔ raw = c :: (body ++ [c]) ∧ result = .ok (.string, .ofList text))) ∧
        ((∀ body ∈ quotedRun c, ¬body ++ [c] <+: cs) →
          ((∃ raw, Taken (c :: cs) raw result) ↔ result = .error .unterminatedString))) ∧
      ∀ kind text, Taken (c :: cs) raw (.ok (kind, text)) →
        (kind = .exprClose ↔ raw = ['}', '}'] ∨ raw = ['-', '}', '}']) ∧
          (kind = .stmtClose ↔ raw = ['%', '}'] ∨ raw = ['-', '%', '}']) := by
  refine ⟨fun result => ?_, fun c cs raw result => ⟨fun hc => ?_, fun hc => ?_, fun hc => ⟨?_, ?_⟩, ?_⟩⟩
  · rw [Token.scan_eq]
    exact ⟨Munched.scanFrom_eq, fun h => h ▸ munched_scanFrom _ _ _⟩
  · rw [(taken_word (isLetter_iff.mp hc)).iff]
    refine and_congr_right fun hraw => ?_
    simp only [← wordKind_eq_iff, hraw, exists_eq_right]
  · obtain ⟨_, htaken, rfl⟩ := taken_number (isDigit_iff.mp hc) cs
    rw [htaken.iff]
    exact and_congr_right fun hraw => by rw [hraw]
  · intro body text hbody hclosed
    exact (taken_string hc hbody hclosed).iff
  · intro hopen
    obtain ⟨raw', htaken⟩ := taken_unterminated hc fun body text hbody => hopen body (mem_quotedRun.mpr ⟨text, hbody⟩)
    exact ⟨fun ⟨_, h⟩ => (h.unique htaken).2, fun h => ⟨raw', h ▸ htaken⟩⟩
  · exact fun kind text h => h.closing

/-- A closing between quotes, and after it the one that closes the tag. -/
theorem tags_are_munched_past_quoted_closing :
    let source := "\x7b\x7b'\x7d\x7d'-\x7d\x7d"
    let literal := ['\'', '}', '}', '\'']
    let tokens : List Token := [⟨.exprOpen, "\x7b\x7b", ⟨1, 1⟩⟩, ⟨.string, "\x7d\x7d", ⟨1, 3⟩⟩,
      ⟨.exprClose, "-\x7d\x7d", ⟨1, 7⟩⟩, ⟨.eof, "", ⟨1, 10⟩⟩]
    Taken (literal ++ ['-', '}', '}']) literal (.ok (.string, "\x7d\x7d")) ∧ Token.scan source = .ok tokens ∧
      Munched (.outside false) source.toList .start (.ok tokens) := by
  intro source literal tokens
  have hmunched := tags_are_munched source
  have hbody : Text.Unescapes '\'' ['}', '}'] ['}', '}'] :=
    .plain (by decide) (by decide) (.plain (by decide) (by decide) .nil)
  have hliteral : Taken (literal ++ ['-', '}', '}']) literal (.ok (.string, "\x7d\x7d")) :=
    ((hmunched.2 _ _ _ _).2.2.1 (.inr rfl)).1 _ _ hbody ⟨['-', '}', '}'], rfl⟩ |>.mpr ⟨rfl, rfl⟩
  have hscan : Token.scan source = .ok tokens := by
    have hopens : Opens source.toList [] '{' [] (literal ++ ['-', '}', '}']) := ⟨by decide, by decide, rfl⟩
    have hmark : ('{', TokenKind.exprOpen, TokenKind.exprClose) ∈ tagMarks := by decide
    have hclosing : Taken (['-', '}', '}'] ++ []) ['-', '}', '}'] (.ok (.exprClose, "-\x7d\x7d")) :=
      taken_symbol rfl rfl
    have hclose : TokenKind.exprClose.isClose = true := rfl
    rw [Token.scan_eq, scanFrom_tag hmark hopens, scanFrom_taken hliteral, if_neg (by decide),
      ← List.append_nil ['-', '}', '}'], scanFrom_taken hclosing, if_pos hclose, if_pos rfl, scanFrom_end rfl]
    rfl
  exact ⟨hliteral, hscan, (hmunched.1 _).mpr hscan⟩

end TemplatedSql
