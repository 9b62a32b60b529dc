import TemplatedSql.Proofs.Token.Locating
import TemplatedSql.Token.Scan

/-! # What a lexer finds

The tokens of a template can be said without a lexer: each stands at the position counted from the one before it, and
the blanks at both ends of a text between two tags are dropped in one step, where both hyphens are known. A lexer, which
looks its positions up, remembers a hyphen until the next text comes and takes blanks off a text that it has added
already, finds the same tokens and fails with the same errors. -/

namespace TemplatedSql

/-- A token unless its text is empty. -/
def Token.ofText (kind : TokenKind) (cs : List Char) (p : Position) : List Token :=
  if cs.isEmpty then [] else [⟨kind, String.ofList cs, p⟩]

/-- The tokens of the text between two tags: blanks dropped at its start, what is kept, and blanks
dropped at its end. -/
def textTokens (trimStart trimEnd : Bool) (cs : List Char) (p : Position) : List Token :=
  let left := if trimStart then cs.takeWhile Text.isBlank else []
  let rest := cs.drop left.length
  let kept := if trimEnd then Text.trimEnd rest else rest
  let right := rest.drop kept.length
  Token.ofText .trimmedWhitespace left p ++ Token.ofText .text kept (p.after left)
    ++ Token.ofText .trimmedWhitespace right ((p.after left).after kept)

/-- A tag that is open: the closing it needs and where it started. -/
structure Opening where
  close : TokenKind
  start : Position

/-- Where the scanner is: outside tags, where blanks at the start of the text may have to be dropped,
or inside one. -/
inductive ScanMode
  | outside (trim : Bool)
  | inside (tag : Opening)

/-- Cuts the rest of a template, which starts at `p`, into tokens. -/
def scanFrom : ScanMode → List Char → Position → Except TemplateError (List Token)
  | .outside trim, cs, p =>
    let text := cs.take (textSize cs)
    let q := p.after text
    match h : cs.drop (textSize cs) with
    | brace :: mark :: rest =>
      let hyphen := rest.take (if rest.head? = some '-' then 1 else 0)
      let body := rest.drop hyphen.length
      let opening := brace :: mark :: hyphen
      let before := textTokens trim (!hyphen.isEmpty) text p
      let tag (kind close : TokenKind) : Except TemplateError (List Token) := do
        let tokens ← scanFrom (.inside ⟨close, q⟩) body (q.after opening)
        .ok (before ++ ⟨kind, String.ofList opening, q⟩ :: tokens)
      match Marker.ofChar? mark with
      | some .comment =>
        match commentSize? body with
        | none => LexFault.unterminatedComment.throw q
        | some n => do
          let comment := opening ++ body.take (n + 2)
          let tokens ←
            scanFrom (.outside ((body.take n).getLast? = some '-')) (body.drop (n + 2)) (q.after comment)
          .ok (before ++ ⟨.comment, String.ofList comment, q⟩ :: tokens)
      | some .expr => tag .exprOpen .exprClose
      | _ => tag .stmtOpen .stmtClose
    | _ => .ok (textTokens trim false cs p ++ [⟨.eof, "", p.after cs⟩])
  | .inside tag, [], _ => (LexFault.unterminatedTag tag.close).throw tag.start
  | .inside tag, c :: cs, p =>
    if isGap c then scanFrom (.inside tag) cs (p.next c)
    else
      match lexeme c cs with
      | .error fault => fault.throw p
      | .ok lexeme =>
        let q := p.after (c :: cs.take lexeme.extra)
        let token : Token := ⟨lexeme.kind, lexeme.text, p⟩
        if lexeme.kind = .exprClose ∨ lexeme.kind = .stmtClose then
          if lexeme.kind = tag.close then do
            let tokens ← scanFrom (.outside (c == '-')) (cs.drop lexeme.extra) q
            .ok (token :: tokens)
          else (LexFault.wrongClose tag.close tag.start lexeme.text).throw p
        else do
          let tokens ← scanFrom (.inside tag) (cs.drop lexeme.extra) q
          .ok (token :: tokens)
termination_by _ cs => cs.length
decreasing_by
  all_goals simp only [List.length_drop, List.length_cons]
  all_goals first
    | omega
    | replace h := congrArg List.length h
      simp only [List.length_drop, List.length_cons] at h
      omega

theorem Marker.ofText?_eq_some {cs : List Char} (h : (Marker.ofText? cs).isSome = true) :
    ∃ mark rest, cs = '{' :: mark :: rest ∧ (Marker.ofChar? mark).isSome = true := by
  unfold Marker.ofText? at h
  split at h
  · rename_i mark rest
    exact ⟨mark, rest, rfl, h⟩
  · cases h

/-- Where the text before the first tag ends, a tag opens or the source ends. -/
theorem drop_textSize (cs : List Char) : cs.drop (textSize cs) = [] ∨
    ∃ mark rest, cs.drop (textSize cs) = '{' :: mark :: rest ∧ (Marker.ofChar? mark).isSome = true := by
  induction cs with
  | nil => exact Or.inl rfl
  | cons c cs ih =>
    rw [textSize]
    split
    · rename_i h
      exact Or.inr (Marker.ofText?_eq_some h)
    · exact ih

theorem Text.trimEnd_prefix (cs : List Char) : Text.trimEnd cs <+: cs := by
  rw [Text.trimEnd, ← List.reverse_suffix, List.reverse_reverse]
  exact List.dropWhile_suffix _

/-! ### The text between two tags -/

@[simp] theorem Token.ofText_nil (kind : TokenKind) (p : Position) : Token.ofText kind [] p = [] :=
  rfl

/-- A text consists of the blanks it loses at its start and the rest. -/
theorem exists_leading (trimStart : Bool) (text : List Char) : ∃ left rest, text = left ++ rest ∧
    (if trimStart then text.takeWhile Text.isBlank else []) = left ∧
    (if trimStart then Text.trimStart text else text) = rest := by
  cases trimStart with
  | false => exact ⟨[], text, rfl, rfl, rfl⟩
  | true => exact ⟨_, _, List.takeWhile_append_dropWhile.symm, rfl, rfl⟩

/-- The tokens of a text, once the blanks at its start are known. -/
theorem textTokens_of_leading {trimStart : Bool} {text left rest : List Char} (hsplit : text = left ++ rest)
    (hleft : (if trimStart then text.takeWhile Text.isBlank else []) = left) (trimEnd : Bool) (p : Position) :
    textTokens trimStart trimEnd text p = Token.ofText .trimmedWhitespace left p ++
      textTokens false trimEnd rest (p.after left) := by
  have hdrop : text.drop left.length = rest := by rw [hsplit, List.drop_left]
  simp only [textTokens, hleft, hdrop, Bool.false_eq_true, if_false, List.length_nil, List.drop_zero, Position.after_nil,
    Token.ofText_nil, List.nil_append, List.append_assoc]

theorem textTokens_keep (text : List Char) (p : Position) :
    textTokens false false text p = Token.ofText .text text p := by
  simp [textTokens, Token.ofText, Position.after]

theorem textTokens_trimEnd (text : List Char) (p : Position) : textTokens false true text p =
    Token.ofText .text (Text.trimEnd text) p ++
      Token.ofText .trimmedWhitespace (text.drop (Text.trimEnd text).length) (p.after (Text.trimEnd text)) :=
  rfl

theorem textTokens_nil (trimStart trimEnd : Bool) (p : Position) : textTokens trimStart trimEnd [] p = [] := by
  cases trimStart <;> cases trimEnd <;> rfl

/-! ### The lexer -/

namespace Lexer

/-- A lexer has cut what stands before a place of a source. -/
structure At (l : Lexer) (source before : List Char) : Prop where
  locator : l.locator.Serves source
  offset : l.offset = Text.byteCount before

theorem at_start (source : List Char) : (start source).At source [] where
  locator := Locator.serves_ofSource source
  offset := rfl

variable {l : Lexer} {source before : List Char}

namespace At
variable {rest : List Char}

theorem position (h : l.At source before) (hsplit : before ++ rest = source) :
    l.position l.offset = Position.start.after before := by
  rw [Lexer.position, h.offset]
  exact (h.locator.locate hsplit).1

theorem position_of_prefix (h : l.At source before) {place : List Char} (hplace : place <+: source) :
    l.position (Text.byteCount place) = Position.start.after place := by
  obtain ⟨rest, hsplit⟩ := hplace
  exact (h.locator.locate hsplit).1

theorem pass (h : l.At source before) (cs : List Char) : (l.pass cs).At source (before ++ cs) where
  locator := h.locator
  offset := by rw [Text.byteCount_append, ← h.offset]; rfl

/-- A token is added with the position of its offset. -/
theorem push (h : l.At source before) {place : List Char} (hplace : place <+: source) {offset : Nat}
    (hoffset : offset = Text.byteCount place) (kind : TokenKind) (text : String) :
    (l.push kind offset text).At source before ∧
      (l.push kind offset text).tokens = ⟨kind, text, Position.start.after place⟩ :: l.tokens := by
  obtain ⟨rest, hsplit⟩ := hplace
  obtain ⟨hposition, hserves⟩ := h.locator.locate hsplit
  subst hoffset
  exact ⟨⟨hserves, h.offset⟩, by rw [← hposition]; rfl⟩

/-- A token that comes next is added and passed. -/
theorem push_pass (h : l.At source before) {raw : List Char} (hsplit : before ++ (raw ++ rest) = source)
    (kind : TokenKind) (text : String) :
    ((l.push kind l.offset text).pass raw).At source (before ++ raw) ∧
      ((l.push kind l.offset text).pass raw).tokens = ⟨kind, text, Position.start.after before⟩ :: l.tokens := by
  obtain ⟨hat, htokens⟩ := h.push ⟨_, hsplit⟩ h.offset kind text
  exact ⟨hat.pass raw, htokens⟩

theorem withTrimNext (h : l.At source before) (trim : Bool) : ({ l with trimNext := trim } : Lexer).At source before where
  locator := h.locator
  offset := h.offset

theorem pushUnlessEmpty (h : l.At source before) {place : List Char} (hplace : place <+: source) {offset : Nat}
    (hoffset : offset = Text.byteCount place) (kind : TokenKind) (text : List Char) :
    (l.pushUnlessEmpty kind offset text).At source before ∧ (l.pushUnlessEmpty kind offset text).tokens =
      (Token.ofText kind text (Position.start.after place)).reverse ++ l.tokens := by
  cases text with
  | nil => exact ⟨h, rfl⟩
  | cons c cs => exact h.push hplace hoffset kind _

/-- A text is added with the blanks at its start apart, if the lexer remembers a hyphen. -/
theorem pushText (h : l.At source before) {text : List Char} (htext : before ++ text <+: source) :
    (l.pushText text).At source before ∧ (l.pushText text).tokens =
      (textTokens l.trimNext false text (Position.start.after before)).reverse ++ l.tokens := by
  obtain ⟨left, rest, hsplit, hleft, hrest⟩ := exists_leading l.trimNext text
  have hblanks : text.take (text.length - rest.length) = left := by
    rw [hsplit, List.length_append, Nat.add_sub_cancel, List.take_left]
  have hplace : before ++ left <+: source := by
    rw [hsplit, ← List.append_assoc] at htext
    exact (List.prefix_append _ rest).trans htext
  obtain ⟨hfirst, hfirstTokens⟩ := (h.withTrimNext false).pushUnlessEmpty ((List.prefix_append before left).trans hplace)
    h.offset .trimmedWhitespace left
  obtain ⟨hboth, hbothTokens⟩ := hfirst.pushUnlessEmpty hplace
    (by rw [Text.byteCount_append, ← h.offset]) .text rest
  rw [Lexer.pushText, hrest, hblanks, textTokens_of_leading hsplit hleft, textTokens_keep, List.reverse_append,
    List.append_assoc, ← Position.after_append]
  exact ⟨hboth, hbothTokens.trans (congrArg _ hfirstTokens)⟩

/-- The blanks at the end of a text are taken off it, or are the whole of it. -/
theorem trimPrevious_text (h : l.At source before) {place text : List Char} (hplace : place ++ text = before)
    (hbefore : before <+: source) {older : List Token} (hne : text ≠ [])
    (htokens : l.tokens = ⟨.text, .ofList text, Position.start.after place⟩ :: older) :
    l.trimPrevious.At source before ∧
      l.trimPrevious.tokens = (textTokens false true text (Position.start.after place)).reverse ++ older := by
  rw [Lexer.trimPrevious, htokens, textTokens_trimEnd]
  simp only [ne_eq, not_true_eq_false, if_false, String.toList_ofList]
  generalize hkept : Text.trimEnd text = kept
  obtain ⟨blanks, rfl⟩ : kept <+: text := hkept ▸ Text.trimEnd_prefix text
  rw [List.drop_left]
  cases blanks with
  | nil =>
    rw [List.append_nil, if_pos rfl, Token.ofText_nil, List.append_nil]
    rw [List.append_nil] at hne htokens
    obtain ⟨c, cs, rfl⟩ := List.exists_cons_of_ne_nil hne
    exact ⟨h, htokens⟩
  | cons b blanks =>
    rw [if_neg (by simp)]
    cases kept with
    | nil => exact ⟨⟨h.locator, h.offset⟩, rfl⟩
    | cons c kept =>
      have hoffset : l.offset - Text.byteCount (b :: blanks) = Text.byteCount (place ++ c :: kept) := by
        rw [h.offset, ← hplace, ← List.append_assoc, Text.byteCount_append, Nat.add_sub_cancel]
      have hprefix : place ++ c :: kept <+: source := by
        rw [← hplace, ← List.append_assoc] at hbefore
        exact (List.prefix_append _ _).trans hbefore
      have hshort : ({ l with tokens := ⟨.text, .ofList (c :: kept), Position.start.after place⟩ :: older } :
          Lexer).At source before := ⟨h.locator, h.offset⟩
      rw [← Position.after_append]
      exact hshort.push hprefix hoffset .trimmedWhitespace _

/-- A hyphen after an opening drops the blanks at the end of the text before it. -/
theorem trimPrevious {text : List Char} (h : l.At source (before ++ text)) (htext : before ++ text <+: source)
    {trimStart : Bool} {older : List Token} (holder : ∀ t ∈ older.head?, t.kind ≠ .text)
    (htokens : l.tokens = (textTokens trimStart false text (Position.start.after before)).reverse ++ older) :
    l.trimPrevious.At source (before ++ text) ∧
      l.trimPrevious.tokens = (textTokens trimStart true text (Position.start.after before)).reverse ++ older := by
  obtain ⟨left, rest, hsplit, hleft, -⟩ := exists_leading trimStart text
  rw [textTokens_of_leading hsplit hleft, List.reverse_append, List.append_assoc, textTokens_keep] at htokens
  rw [textTokens_of_leading hsplit hleft, List.reverse_append, List.append_assoc]
  cases rest with
  | nil =>
    have hsame : l.trimPrevious = l := by
      rw [Lexer.trimPrevious, htokens]
      cases left with
      | nil =>
        cases older with
        | nil => rfl
        | cons t older => exact if_pos (holder t rfl)
      | cons c left => rfl
    rw [hsame]
    exact ⟨h, htokens⟩
  | cons c rest =>
    rw [← Position.after_append] at htokens ⊢
    exact h.trimPrevious_text (by rw [hsplit, List.append_assoc]) htext (List.cons_ne_nil c rest) htokens

end At

theorem At.passText (h : l.At source before) {text : List Char} (htext : before ++ text <+: source) :
    (l.passText text).At source (before ++ text) ∧ (l.passText text).tokens =
      (textTokens l.trimNext false text (Position.start.after before)).reverse ++ l.tokens := by
  cases text with
  | nil =>
    rw [textTokens_nil]
    exact ⟨h.pass [], rfl⟩
  | cons c cs =>
    obtain ⟨hat, htokens⟩ := h.pushText htext
    exact ⟨hat.pass _, htokens⟩

theorem At.passTextBefore (h : l.At source before) {text : List Char} (htext : before ++ text <+: source)
    (hlast : ∀ t ∈ l.tokens.head?, t.kind ≠ .text) (hyphen : List Char) :
    (l.passTextBefore text hyphen).At source (before ++ text) ∧ (l.passTextBefore text hyphen).tokens =
      (textTokens l.trimNext (!hyphen.isEmpty) text (Position.start.after before)).reverse ++ l.tokens := by
  obtain ⟨hat, htokens⟩ := h.passText htext
  cases hyphen with
  | nil => exact ⟨hat.withTrimNext false, htokens⟩
  | cons c hyphen => exact (hat.withTrimNext false).trimPrevious htext hlast htokens

end Lexer

/-! ### What stands next outside tags -/

/-- What opens a tag: its second character, its token and the token that is to close it. -/
def tagMarks : List (Char × TokenKind × TokenKind) :=
  [('{', .exprOpen, .exprClose), ('%', .stmtOpen, .stmtClose)]

/-- After `text` a tag or a comment opens with the second character `mark` and, if there is one there, the hyphen. -/
structure Opens (cs text : List Char) (mark : Char) (hyphen body : List Char) : Prop where
  take_eq : cs.take (textSize cs) = text
  drop_eq : cs.drop (textSize cs) = '{' :: mark :: (hyphen ++ body)
  hyphen_eq : (hyphen ++ body).take (if (hyphen ++ body).head? = some '-' then 1 else 0) = hyphen

theorem Marker.eq_of_ofChar? {mark : Char} (h : (Marker.ofChar? mark).isSome = true) :
    mark = '#' ∨ ∃ kind close, (mark, kind, close) ∈ tagMarks := by
  unfold Marker.ofChar? at h
  split at h
  · rename_i hmark
    exact .inr ⟨.exprOpen, .exprClose, by simp [tagMarks, hmark]⟩
  · split at h
    · rename_i hmark
      exact .inr ⟨.stmtOpen, .stmtClose, by simp [tagMarks, hmark]⟩
    · split at h
      · rename_i hmark
        exact .inl hmark
      · cases h

/-- The rest of a source is text, or a comment or a tag opens in it. -/
theorem exists_opens (cs : List Char) : cs.drop (textSize cs) = [] ∨ ∃ text mark hyphen body,
    Opens cs text mark hyphen body ∧ (mark = '#' ∨ ∃ kind close, (mark, kind, close) ∈ tagMarks) := by
  rcases drop_textSize cs with hend | ⟨mark, rest, hdrop, hmark⟩
  · exact .inl hend
  · let n := if rest.head? = some '-' then 1 else 0
    refine .inr ⟨cs.take (textSize cs), mark, rest.take n, rest.drop n, ⟨rfl, ?_, ?_⟩, Marker.eq_of_ofChar? hmark⟩
    · rw [hdrop, List.take_append_drop]
    · rw [List.take_append_drop]

section Next
variable {trim : Bool} {cs text hyphen body : List Char} {mark : Char} {kind close : TokenKind} {p : Position}

theorem Opens.split (h : Opens cs text mark hyphen body) : cs = text ++ ('{' :: mark :: hyphen ++ body) := by
  rw [← List.take_append_drop (textSize cs) cs, h.take_eq, h.drop_eq]
  rfl

theorem scanFrom_end (h : cs.drop (textSize cs) = []) :
    scanFrom (.outside trim) cs p = .ok (textTokens trim false cs p ++ [⟨.eof, "", p.after cs⟩]) := by
  rw [scanFrom]
  split
  · rename_i heq
    rw [h] at heq
    cases heq
  · rfl

theorem scanFrom_comment (h : Opens cs text '#' hyphen body) : scanFrom (.outside trim) cs p =
    match commentSize? body with
    | none => LexFault.unterminatedComment.throw (p.after text)
    | some n =>
      let comment := '{' :: '#' :: hyphen ++ body.take (n + 2)
      (scanFrom (.outside ((body.take n).getLast? = some '-')) (body.drop (n + 2)) ((p.after text).after comment)).map
        (textTokens trim (!hyphen.isEmpty) text p ++ ⟨.comment, .ofList comment, p.after text⟩ :: ·) := by
  rw [scanFrom]
  split
  · rename_i brace mark' rest heq
    rw [h.drop_eq] at heq
    cases heq
    simp only [h.take_eq, h.hyphen_eq, List.drop_left]
    rfl
  · rename_i hnone
    exact absurd h.drop_eq (hnone _ _ _)

theorem scanFrom_tag (hmark : (mark, kind, close) ∈ tagMarks) (h : Opens cs text mark hyphen body) :
    scanFrom (.outside trim) cs p =
      (scanFrom (.inside ⟨close, p.after text⟩) body ((p.after text).after ('{' :: mark :: hyphen))).map
        (textTokens trim (!hyphen.isEmpty) text p ++ ⟨kind, .ofList ('{' :: mark :: hyphen), p.after text⟩ :: ·) := by
  rw [scanFrom]
  split
  · rename_i brace mark' rest heq
    rw [h.drop_eq] at heq
    cases heq
    simp only [h.take_eq, h.hyphen_eq, List.drop_left]
    simp only [tagMarks, List.mem_cons, Prod.mk.injEq, List.not_mem_nil, or_false] at hmark
    rcases hmark with ⟨rfl, rfl, rfl⟩ | ⟨rfl, rfl, rfl⟩ <;> rfl
  · rename_i hnone
    exact absurd h.drop_eq (hnone _ _ _)

namespace Lexer
variable {l : Lexer}

theorem run_end (h : cs.drop (textSize cs) = []) :
    run none l cs = .ok ((l.passText cs).push .eof (l.passText cs).offset "").tokens.reverse := by
  rw [run]
  split
  · rename_i heq
    rw [h] at heq
    cases heq
  · rfl

theorem run_comment (h : Opens cs text '#' hyphen body) : run none l cs =
    match commentSize? body with
    | none => LexFault.unterminatedComment.throw
        ((l.passTextBefore text hyphen).position (l.passTextBefore text hyphen).offset)
    | some n =>
      let l := l.passTextBefore text hyphen
      let comment := '{' :: '#' :: hyphen ++ body.take (n + 2)
      run none { (l.push .comment l.offset (.ofList comment)).pass comment with
        trimNext := (body.take n).getLast? = some '-' } (body.drop (n + 2)) := by
  rw [run]
  split
  · rename_i brace mark' rest heq
    rw [h.drop_eq] at heq
    cases heq
    simp only [h.take_eq, h.hyphen_eq, List.drop_left]
    rfl
  · rename_i hnone
    exact absurd h.drop_eq (hnone _ _ _)

theorem run_tag (hmark : (mark, kind, close) ∈ tagMarks) (h : Opens cs text mark hyphen body) :
    run none l cs =
      let l := l.passTextBefore text hyphen
      run (some ⟨close, l.offset⟩)
        ((l.push kind l.offset (.ofList ('{' :: mark :: hyphen))).pass ('{' :: mark :: hyphen)) body := by
  rw [run]
  split
  · rename_i brace mark' rest heq
    rw [h.drop_eq] at heq
    cases heq
    simp only [h.take_eq, h.hyphen_eq, List.drop_left]
    simp only [tagMarks, List.mem_cons, Prod.mk.injEq, List.not_mem_nil, or_false] at hmark
    rcases hmark with ⟨rfl, rfl, rfl⟩ | ⟨rfl, rfl, rfl⟩ <;> rfl
  · rename_i hnone
    exact absurd h.drop_eq (hnone _ _ _)

/-- What a lexer finds comes after what it has found, and is what the rest of the source is cut into. -/
def Finds (l : Lexer) (found cut : Except TemplateError (List Token)) : Prop :=
  found = cut.map (l.tokens.reverse ++ ·)

/-- Tokens that were added are found before the rest. -/
theorem Finds.of_push {m : Lexer} {found cut : Except TemplateError (List Token)} (texts : List Token)
    (h : m.Finds found cut) {t : Token} (htokens : m.tokens = t :: (texts.reverse ++ l.tokens)) :
    l.Finds found (cut.map (texts ++ t :: ·)) := by
  rw [Finds, h, htokens]
  cases cut with
  | error e => rfl
  | ok more => simp [Except.map]

/-- A lexer finds the tokens that the rest of the source is cut into. The induction is on the length of the rest. Outside
    tags no text was added last, as the text before a tag is added together with the tag. -/
theorem finds_scanFrom {source : List Char} (cs : List Char) :
    (∀ {l : Lexer} {before : List Char}, l.At source before → before ++ cs = source →
      (∀ t ∈ l.tokens.head?, t.kind ≠ .text) →
      l.Finds (run none l cs) (scanFrom (.outside l.trimNext) cs (Position.start.after before))) ∧
    (∀ {l : Lexer} {before opened : List Char} (close : TokenKind), l.At source before → before ++ cs = source →
      opened <+: source → l.Finds (run (some ⟨close, Text.byteCount opened⟩) l cs)
        (scanFrom (.inside ⟨close, Position.start.after opened⟩) cs (Position.start.after before))) := by
  induction hn : cs.length using Nat.strong_induction_on generalizing cs with
  | _ n ih =>
    subst hn
    constructor
    · intro l before h hsplit hlast
      rcases exists_opens cs with hend | ⟨text, mark, hyphen, body, hopens, hmark⟩
      · have hall : before ++ cs <+: source := ⟨[], by rw [List.append_nil, hsplit]⟩
        obtain ⟨hat, htokens⟩ := h.passText hall
        obtain ⟨-, hlast⟩ := hat.push hall hat.offset .eof ""
        rw [run_end hend, scanFrom_end hend, Finds, hlast, htokens, Position.after_append]
        simp [Except.map]
      · have hcs := hopens.split
        have htext : before ++ text ++ ('{' :: mark :: hyphen ++ body) = source := by
          rw [← hsplit, hcs, List.append_assoc]
        have hlength : body.length < cs.length := by
          rw [hcs]
          simp only [List.length_append, List.length_cons]
          omega
        obtain ⟨hat, htokens⟩ := h.passTextBefore ⟨_, htext⟩ hlast hyphen
        generalize hm : l.passTextBefore text hyphen = m at hat htokens
        rcases hmark with rfl | ⟨kind, close, hmark⟩
        · rw [run_comment hopens, scanFrom_comment hopens, hm, ← Position.after_append]
          cases hsize : commentSize? body with
          | none =>
            dsimp only
            rw [hat.position htext]
            rfl
          | some n =>
            have hcomment : before ++ text ++ ('{' :: '#' :: hyphen ++ body.take (n + 2) ++ body.drop (n + 2)) = source := by
              rw [← htext, List.append_assoc _ (body.take _), List.take_append_drop]
            dsimp only
            generalize '{' :: '#' :: hyphen ++ body.take (n + 2) = comment at hcomment ⊢
            obtain ⟨hnext, hpushed⟩ := hat.push_pass hcomment .comment (.ofList comment)
            rw [← Position.after_append]
            refine Finds.of_push _ ((ih _ ?_ _ rfl).1 (hnext.withTrimNext _) ?_ ?_) (hpushed.trans (congrArg _ htokens))
            · exact (List.drop_sublist _ _).length_le.trans_lt hlength
            · rw [List.append_assoc, hcomment]
            · show ∀ t ∈ ((m.push .comment m.offset (.ofList comment)).pass comment).tokens.head?, t.kind ≠ .text
              rw [hpushed]
              intro t ht
              cases ht
              exact TokenKind.noConfusion
        · rw [run_tag hmark hopens, scanFrom_tag hmark hopens, hm, ← Position.after_append]
          dsimp only
          generalize '{' :: mark :: hyphen = opening at htext ⊢
          obtain ⟨hnext, hpushed⟩ := hat.push_pass htext kind (.ofList opening)
          have hinside := (ih _ hlength _ rfl).2 close hnext (by rw [List.append_assoc, htext]) ⟨_, htext⟩
          rw [← hat.offset, Position.after_append _ (before ++ text)] at hinside
          exact Finds.of_push _ hinside (hpushed.trans (congrArg _ htokens))
    · intro l before opened close h hsplit hopened
      cases cs with
      | nil =>
        rw [run, scanFrom, h.position_of_prefix hopened]
        rfl
      | cons c rest =>
        rw [run, scanFrom]
        split
        · have hgap := (ih rest.length (Nat.lt_succ_self _) rest rfl).2 close (h.pass [c])
            (by rw [List.append_assoc]; exact hsplit) hopened
          rw [Position.after_append] at hgap
          exact hgap
        · cases hl : lexeme c rest with
          | error fault =>
            dsimp only
            rw [h.position hsplit]
            rfl
          | ok lexeme =>
            dsimp only
            have hlexeme : before ++ (c :: rest.take lexeme.extra ++ rest.drop lexeme.extra) = source := by
              rw [List.cons_append, List.take_append_drop, hsplit]
            have hlength : (rest.drop lexeme.extra).length < (c :: rest).length :=
              (List.drop_sublist _ _).length_le.trans_lt (Nat.lt_succ_self _)
            generalize c :: rest.take lexeme.extra = raw at hlexeme ⊢
            obtain ⟨hnext, hpushed⟩ := h.push_pass hlexeme lexeme.kind lexeme.text
            rw [← Position.after_append]
            split
            · rename_i hclose
              split
              · refine Finds.of_push [] ((ih _ hlength _ rfl).1 (hnext.withTrimNext _) ?_ ?_) hpushed
                · rw [List.append_assoc, hlexeme]
                · show ∀ t ∈ ((l.push lexeme.kind l.offset lexeme.text).pass raw).tokens.head?, t.kind ≠ .text
                  rw [hpushed]
                  intro t ht
                  cases ht
                  rcases hclose with hkind | hkind <;> rw [hkind] <;> exact TokenKind.noConfusion
              · obtain ⟨hposition, hserves⟩ := h.locator.locate hsplit
                obtain ⟨inside, hopened⟩ := hopened
                rw [h.offset, hposition, (hserves.locate hopened).1]
                rfl
            · exact Finds.of_push [] ((ih _ hlength _ rfl).2 close hnext (by rw [List.append_assoc, hlexeme]) hopened)
                hpushed

end Lexer

end Next

/-- Cutting a template gives its tokens, however the lexer goes about it. -/
theorem Token.scan_eq (source : String) :
    Token.scan source = scanFrom (.outside false) source.toList .start := by
  have hfinds := (Lexer.finds_scanFrom source.toList).1 (Lexer.at_start source.toList) rfl
    (fun t ht => by cases ht)
  rw [Token.scan, hfinds]
  show (scanFrom (.outside false) source.toList .start).map ([] ++ ·) = _
  cases scanFrom (.outside false) source.toList .start <;> rfl

end TemplatedSql
