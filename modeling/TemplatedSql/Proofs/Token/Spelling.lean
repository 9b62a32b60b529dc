import Mathlib.Data.List.TakeWhile
import TemplatedSql.Token.Lexeme

/-! # How the tokens of a tag are written

A token inside a tag is a word, a number, a quoted string or a symbol. Only the text of a string differs from what
is written for it: it is what the escapes between the quotes stand for. -/

namespace TemplatedSql

/-- What is written between quotes `q`, and the text it stands for: no quote and no backslash stands there but in
    an escape, and a backslash does not escape a line feed. -/
inductive Text.Unescapes (q : Char) : List Char → List Char → Prop
  | nil : Unescapes q [] []
  | plain {c body text} (hquote : c ≠ q) (hescape : c ≠ '\\') (h : Unescapes q body text) :
    Unescapes q (c :: body) (c :: text)
  | escape {d body text} (hline : d ≠ '\n') (h : Unescapes q body text) :
    Unescapes q ('\\' :: d :: body) (Text.unescape d :: text)

/-- The kind of a token inside a tag, what is written for it, and its text. -/
inductive TokenKind.Spelled : TokenKind → List Char → String → Prop
  | word {c part} (hstart : isWordStart c = true) (hpart : ∀ d ∈ part, isWordPart d = true) :
    Spelled (wordKind (.ofList (c :: part))) (c :: part) (.ofList (c :: part))
  | number {c part} (hstart : c.isDigit = true) (hpart : ∀ d ∈ part, isNumberPart d = true)
    (hvalue : (Number.ofString? (.ofList (c :: part))).isSome = true) :
    Spelled .number (c :: part) (.ofList (c :: part))
  | string {q body text} (hquote : q = '"' ∨ q = '\'') (h : Text.Unescapes q body text) :
    Spelled .string (q :: (body ++ [q])) (.ofList text)
  | symbol {raw kind} (h : (raw, kind) ∈ symbols) : Spelled kind raw (.ofList raw)

namespace TokenKind

/-- Whether tokens of the kind close tags. -/
def isClose : TokenKind → Bool
  | exprClose | stmtClose => true
  | _ => false

/-- Whether tokens of the kind stand between the delimiters of a tag. -/
def isInner : TokenKind → Bool
  | text | trimmedWhitespace | comment | exprOpen | exprClose | stmtOpen | stmtClose | eof => false
  | _ => true

theorem isClose_iff {kind : TokenKind} : kind.isClose = true ↔ kind = exprClose ∨ kind = stmtClose := by
  cases kind <;> simp [isClose]

end TokenKind

theorem wordKind_inner (word : String) : (wordKind word).isInner = true := by
  rw [wordKind]
  cases h : keywords.lookup word with
  | none => rfl
  | some kind =>
    have hall : ∀ entry ∈ keywords, entry.2.isInner = true := by decide
    obtain ⟨before, after, hsplit, -⟩ := List.lookup_eq_some_iff.mp h
    exact hall (word, kind) (by simp [hsplit])

namespace TokenKind.Spelled
variable {kind : TokenKind} {raw : List Char} {text : String}

theorem inner_or_close (h : kind.Spelled raw text) : kind.isInner = true ∨ kind.isClose = true := by
  cases h with
  | word => exact Or.inl (wordKind_inner _)
  | number => exact Or.inl rfl
  | string => exact Or.inl rfl
  | symbol h =>
    have hall : ∀ entry ∈ symbols, entry.2.isInner = true ∨ entry.2.isClose = true := by decide
    exact hall _ h

theorem text_eq (h : kind.Spelled raw text) (hkind : kind ≠ .string) : text = .ofList raw := by
  cases h with
  | string => exact absurd rfl hkind
  | _ => rfl

end TokenKind.Spelled

/-! ### Characters -/

theorem isGap_eq_false {c : Char} {p : Char → Bool} (hp : [' ', '\t', '\r', '\n', '\x0c'].any p = false) (hc : p c = true) :
    isGap c = false := by
  rw [← Bool.not_eq_true]
  intro hgap
  simp only [isGap, Bool.or_eq_true, beq_iff_eq] at hgap
  exact List.any_eq_false.mp hp c (by simpa [or_assoc] using hgap) hc

theorem isWordStart_of_isDigit {c : Char} (h : c.isDigit = true) : isWordStart c = false := by
  obtain ⟨-, hnine⟩ := (Bool.and_eq_true _ _).mp h
  have hnine : c.val ≤ '9'.val := of_decide_eq_true hnine
  rw [← Bool.not_eq_true]
  intro hstart
  rcases (Bool.or_eq_true _ _).mp hstart with hletter | hunderscore
  · rcases (Bool.or_eq_true _ _).mp hletter with hupper | hlower
    · have hfrom : 'A'.val ≤ c.val := (of_decide_eq_true hupper).1
      exact absurd (UInt32.le_trans hfrom hnine) (by decide)
    · have hfrom : 'a'.val ≤ c.val := of_decide_eq_true ((Bool.and_eq_true _ _).mp hlower).1
      exact absurd (UInt32.le_trans hfrom hnine) (by decide)
  · rw [beq_iff_eq.mp hunderscore] at hnine
    exact absurd hnine (by decide)

theorem takeWhile_append_of_head {raw rest : List Char} {p : Char → Bool} (hraw : ∀ d ∈ raw, p d = true)
    (hrest : ∀ d ∈ rest.head?, p d = false) : (raw ++ rest).takeWhile p = raw := by
  rw [List.takeWhile_append_of_pos hraw]
  cases rest with
  | nil => rw [List.takeWhile_nil, List.append_nil]
  | cons d rest => rw [List.takeWhile_cons_of_neg (by rw [hrest d rfl]; decide), List.append_nil]

theorem prefix_takeWhile {p : Char → Bool} {part cs : List Char} (hstart : part <+: cs)
    (hpart : ∀ d ∈ part, p d = true) : part <+: cs.takeWhile p := by
  obtain ⟨rest, rfl⟩ := hstart
  rw [List.takeWhile_append_of_pos hpart]
  exact List.prefix_append _ _

/-! ### Quoted texts -/

theorem Text.readQuoted_unescapes {q : Char} {cs : List Char} : ∀ {text : List Char} {size : Nat},
    Text.readQuoted q cs = some (text, size) →
      ∃ body, Text.Unescapes q body text ∧ size = body.length + 1 ∧ cs.take size = body ++ [q] := by
  fun_induction Text.readQuoted q cs with
  | case1 | case2 | case3 =>
    intro text size h
    cases h
  | case4 d cs hline ih =>
    intro text size h
    obtain ⟨⟨text, size⟩, hread, hr⟩ := Option.map_eq_some_iff.mp h
    cases hr
    obtain ⟨body, hbody, hsize, hraw⟩ := ih hread
    exact ⟨'\\' :: d :: body, .escape hline hbody, by simp [hsize], by simp [hraw]⟩
  | case5 cs hlone hescape =>
    intro text size h
    cases h
    exact ⟨[], .nil, rfl, rfl⟩
  | case6 c cs hlone hescape hquote ih =>
    intro text size h
    obtain ⟨⟨text, size⟩, hread, hr⟩ := Option.map_eq_some_iff.mp h
    cases hr
    obtain ⟨body, hbody, hsize, hraw⟩ := ih hread
    have hplain : c ≠ '\\' := by
      intro hc
      cases hcs : cs with
      | nil => exact hlone hc hcs
      | cons d ds => exact hescape d ds hc hcs
    exact ⟨c :: body, .plain hquote hplain hbody, by simp [hsize], by simp [hraw]⟩

theorem take_length_takeWhile {α : Type} (p : α → Bool) (as : List α) :
    as.take (as.takeWhile p).length = as.takeWhile p :=
  (List.prefix_iff_eq_take.mp (List.takeWhile_prefix p)).symm

/-! ### What starts no token -/

/-- No token starts with a text, for the reason given. -/
inductive LexFault.At : LexFault → List Char → Prop
  | unexpected {c cs} (hword : isWordStart c = false) (hdigit : c.isDigit = false) (hquote : c ≠ '"' ∧ c ≠ '\'')
    (hsymbol : ∀ s ∈ symbols, ¬s.1 <+: c :: cs) : At (.unexpected c) (c :: cs)
  | unterminatedString {q cs} (hquote : q = '"' ∨ q = '\'')
    (hopen : ∀ body text, Text.Unescapes q body text → ¬body ++ [q] <+: cs) : At .unterminatedString (q :: cs)
  | invalidNumber {c part rest} (hstart : c.isDigit = true) (hpart : ∀ d ∈ part, isNumberPart d = true)
    (hend : ∀ d ∈ rest.head?, isNumberPart d = false) (hvalue : Number.ofString? (.ofList (c :: part)) = none) :
    At (.invalidNumber (.ofList (c :: part))) (c :: (part ++ rest))

theorem Text.Unescapes.readQuoted {q : Char} (hq : q ≠ '\\') {body text : List Char} (h : Text.Unescapes q body text)
    (rest : List Char) : Text.readQuoted q (body ++ q :: rest) = some (text, body.length + 1) := by
  induction h with
  | nil => simp [Text.readQuoted, hq]
  | plain hquote hescape _ ih => simp [Text.readQuoted, hquote, hescape, ih]
  | escape hline _ ih => simp [Text.readQuoted, hline, ih]

theorem lexeme_error {c : Char} {cs : List Char} {fault : LexFault} (h : lexeme c cs = .error fault) :
    fault.At (c :: cs) := by
  rw [lexeme] at h
  split at h
  · cases h
  · rename_i hword
    split at h
    · rename_i hdigit
      dsimp only at h
      split at h
      · cases h
      · rename_i hvalue
        cases h
        have hcs : c :: cs = c :: (cs.takeWhile isNumberPart ++ cs.dropWhile isNumberPart) := by
          rw [List.takeWhile_append_dropWhile]
        rw [hcs]
        refine .invalidNumber hdigit (fun d hd => List.mem_takeWhile_imp hd) (fun d hd => ?_)
          (Option.not_isSome_iff_eq_none.mp hvalue)
        have hnot := List.head?_dropWhile_not isNumberPart cs
        rw [Option.mem_def.mp hd] at hnot
        exact hnot
    · rename_i hdigit
      split at h
      · rename_i hquote
        split at h
        · cases h
        · rename_i hread
          cases h
          have hq : c ≠ '\\' := by
            rintro rfl
            exact absurd hquote (by decide)
          refine .unterminatedString hquote fun body text hbody hwithin => ?_
          obtain ⟨rest, hrest⟩ := hwithin
          rw [← hrest, List.append_assoc, List.singleton_append, hbody.readQuoted hq] at hread
          cases hread
      · rename_i hquote
        split at h
        · cases h
        · rename_i hfind
          cases h
          refine .unexpected (Bool.eq_false_iff.mpr hword) (Bool.eq_false_iff.mpr hdigit) (not_or.mp hquote) ?_
          intro s hs hfits
          exact List.find?_eq_none.mp hfind s hs (List.isPrefixOf_iff_prefix.mpr hfits)

end TemplatedSql
