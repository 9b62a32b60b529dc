import Mathlib
import TemplatedSql.Proofs.Token.Spelling

/-! # The longest token

The tokens inside a tag are those of a few patterns: fixed texts, and the regular languages of identifiers, numbers
and strings. What is taken is the longest text at the place that a pattern matches, and a fixed text goes before an
identifier of the same text. -/

namespace TemplatedSql

open scoped Computability

/-! ### Patterns -/

/-- The texts of one character of a class. -/
def oneOf (p : Char → Prop) : Language Char :=
  {text | ∃ c, p c ∧ text = [c]}

/-- The letters of ASCII and the underscore. -/
def IsLetter (c : Char) : Prop :=
  ('A' ≤ c ∧ c ≤ 'Z') ∨ ('a' ≤ c ∧ c ≤ 'z') ∨ c = '_'

/-- The digits of ASCII. -/
def IsDigit (c : Char) : Prop :=
  '0' ≤ c ∧ c ≤ '9'

/-- What may stand after a quote `q`: other characters, and a backslash with any character but a line feed. -/
def quotedRun (q : Char) : Language Char :=
  (oneOf (fun c => c ≠ q ∧ c ≠ '\\') + {['\\']} * oneOf (· ≠ '\n'))∗

/-- A pattern of the tokens inside a tag. A string that is not closed has a pattern too, which makes it an error. -/
inductive Pattern
  | fixed (text : List Char) (kind : TokenKind)
  | identifier
  | number
  | string (quote : Char)
  | unterminated (quote : Char)

/-- The texts that a pattern matches. -/
def Pattern.language : Pattern → Language Char
  | fixed text _ => {text}
  | identifier => oneOf IsLetter * (oneOf fun c => IsLetter c ∨ IsDigit c)∗
  | number => oneOf IsDigit * (oneOf fun c => IsLetter c ∨ IsDigit c ∨ c = '.')∗
  | string q => {[q]} * quotedRun q * {[q]}
  | unterminated q => {[q]} * quotedRun q

/-- The patterns inside a tag. -/
def patterns : List Pattern :=
  symbols.map (fun s => .fixed s.1 s.2) ++ keywords.map (fun k => .fixed k.1.toList k.2) ++
    [.identifier, .number, .string '"', .string '\'', .unterminated '"', .unterminated '\'']

/-- Of the texts that patterns match at the start of `cs`, the longest is `raw`. It is taken for a match of `pattern`,
    which is the fixed text `raw` if that is a pattern. -/
structure LongestMatch (cs raw : List Char) (pattern : Pattern) : Prop where
  mem : pattern ∈ patterns
  fits : raw ∈ pattern.language
  start : raw <+: cs
  longest : ∀ p ∈ patterns, ∀ text ∈ p.language, text <+: cs → text.length ≤ raw.length
  fixed_first : ∀ kind, .fixed raw kind ∈ patterns → pattern = .fixed raw kind

/-- The kind and the text of the token that a match of a pattern makes, or why it makes none. -/
inductive Pattern.Gives : Pattern → List Char → Except LexFault (TokenKind × String) → Prop
  | fixed {text kind} : Gives (.fixed text kind) text (.ok (kind, .ofList text))
  | identifier {raw} : Gives .identifier raw (.ok (.identifier, .ofList raw))
  | number {raw} (hvalue : (Number.ofString? (.ofList raw)).isSome = true) :
    Gives .number raw (.ok (.number, .ofList raw))
  | invalidNumber {raw} (hvalue : Number.ofString? (.ofList raw) = none) :
    Gives .number raw (.error (.invalidNumber (.ofList raw)))
  | string {q body text} (h : Text.Unescapes q body text) :
    Gives (.string q) (q :: (body ++ [q])) (.ok (.string, .ofList text))
  | unterminated {q raw} : Gives (.unterminated q) raw (.error .unterminatedString)

/-- The longest match at the start of `cs` is `raw`, and this is what it makes. -/
def Taken (cs raw : List Char) (result : Except LexFault (TokenKind × String)) : Prop :=
  ∃ pattern, LongestMatch cs raw pattern ∧ pattern.Gives raw result

/-! ### The texts of the languages -/

theorem mem_oneOf_mul {p : Char → Prop} {l : Language Char} {text : List Char} :
    text ∈ oneOf p * l ↔ ∃ c rest, text = c :: rest ∧ p c ∧ rest ∈ l := by
  rw [Language.mem_mul]
  constructor
  · rintro ⟨_, ⟨c, hc, rfl⟩, rest, hrest, rfl⟩
    exact ⟨c, rest, rfl, hc, hrest⟩
  · rintro ⟨c, rest, rfl, hc, hrest⟩
    exact ⟨[c], ⟨c, hc, rfl⟩, rest, hrest, rfl⟩

theorem mem_singleton_mul {c : Char} {l : Language Char} {text : List Char} :
    text ∈ ({[c]} : Language Char) * l ↔ ∃ rest, text = c :: rest ∧ rest ∈ l := by
  rw [Language.mem_mul]
  constructor
  · rintro ⟨_, rfl, rest, hrest, rfl⟩
    exact ⟨rest, rfl, hrest⟩
  · rintro ⟨rest, rfl, hrest⟩
    exact ⟨[c], rfl, rest, hrest, rfl⟩

theorem mem_kstar_oneOf {p : Char → Prop} {text : List Char} : text ∈ (oneOf p)∗ ↔ ∀ c ∈ text, p c := by
  rw [Language.mem_kstar]
  constructor
  · rintro ⟨parts, rfl, hparts⟩ c hc
    obtain ⟨part, hpart, hc⟩ := List.mem_flatten.mp hc
    obtain ⟨d, hd, rfl⟩ := hparts part hpart
    exact List.mem_singleton.mp hc ▸ hd
  · intro h
    refine ⟨text.map fun c => [c], by rw [← List.flatMap_def, List.flatMap_singleton'], fun part hpart => ?_⟩
    obtain ⟨c, hc, rfl⟩ := List.mem_map.mp hpart
    exact ⟨c, h c hc, rfl⟩

theorem isLetter_iff {c : Char} : IsLetter c ↔ isWordStart c = true := by
  simp [IsLetter, isWordStart, Char.isAlpha, Char.isUpper, Char.isLower, Char.le_def, or_assoc]

theorem isDigit_iff {c : Char} : IsDigit c ↔ c.isDigit = true := by
  simp only [IsDigit, Char.isDigit, Char.le_def, Bool.and_eq_true, decide_eq_true_eq, ge_iff_le]

theorem isWordPart_iff {c : Char} : IsLetter c ∨ IsDigit c ↔ isWordPart c = true := by
  simp only [isLetter_iff, isDigit_iff, isWordStart, isWordPart, Char.isAlphanum, Bool.or_eq_true, or_right_comm]

theorem isNumberPart_iff {c : Char} : IsLetter c ∨ IsDigit c ∨ c = '.' ↔ isNumberPart c = true := by
  rw [← or_assoc, isWordPart_iff, isNumberPart, Bool.or_eq_true, beq_iff_eq]

theorem mem_identifier {text : List Char} : text ∈ Pattern.identifier.language ↔
    ∃ c part, text = c :: part ∧ isWordStart c = true ∧ ∀ d ∈ part, isWordPart d = true := by
  simp only [Pattern.language, mem_oneOf_mul, mem_kstar_oneOf, ← isLetter_iff, ← isWordPart_iff]

theorem mem_number {text : List Char} : text ∈ Pattern.number.language ↔
    ∃ c part, text = c :: part ∧ c.isDigit = true ∧ ∀ d ∈ part, isNumberPart d = true := by
  simp only [Pattern.language, mem_oneOf_mul, mem_kstar_oneOf, ← isDigit_iff, ← isNumberPart_iff]

theorem mem_quotedRun {q : Char} {body : List Char} : body ∈ quotedRun q ↔ ∃ text, Text.Unescapes q body text := by
  constructor
  · intro h
    obtain ⟨parts, rfl, hparts⟩ := Language.mem_kstar.mp h
    clear h
    induction parts with
    | nil => exact ⟨[], .nil⟩
    | cons part parts ih =>
      obtain ⟨hpart, hparts⟩ := List.forall_mem_cons.mp hparts
      obtain ⟨text, htext⟩ := ih hparts
      rcases (Language.mem_add _ _ _).mp hpart with ⟨c, ⟨hquote, hescape⟩, rfl⟩ | hescaped
      · exact ⟨_, .plain hquote hescape htext⟩
      · obtain ⟨_, rfl, d, hd, rfl⟩ := mem_singleton_mul.mp hescaped
        exact ⟨_, .escape hd htext⟩
  · rintro ⟨text, h⟩
    refine Language.mem_kstar.mpr ?_
    induction h with
    | nil => exact ⟨[], rfl, List.forall_mem_nil _⟩
    | @plain c body text hquote hescape _ ih =>
      obtain ⟨parts, rfl, hparts⟩ := ih
      refine ⟨[c] :: parts, rfl, List.forall_mem_cons.mpr ⟨?_, hparts⟩⟩
      exact (Language.mem_add _ _ _).mpr (.inl ⟨c, ⟨hquote, hescape⟩, rfl⟩)
    | @escape d body text hline _ ih =>
      obtain ⟨parts, rfl, hparts⟩ := ih
      refine ⟨['\\', d] :: parts, rfl, List.forall_mem_cons.mpr ⟨?_, hparts⟩⟩
      exact (Language.mem_add _ _ _).mpr (.inr (mem_singleton_mul.mpr ⟨[d], rfl, d, hline, rfl⟩))

theorem mem_string {q : Char} {text : List Char} : text ∈ (Pattern.string q).language ↔
    ∃ body ∈ quotedRun q, text = q :: (body ++ [q]) := by
  rw [Pattern.language, mul_assoc, mem_singleton_mul]
  constructor
  · rintro ⟨_, rfl, hrest⟩
    obtain ⟨body, hbody, _, rfl, rfl⟩ := Language.mem_mul.mp hrest
    exact ⟨body, hbody, rfl⟩
  · rintro ⟨body, hbody, rfl⟩
    exact ⟨_, rfl, Language.mem_mul.mpr ⟨body, hbody, [q], rfl, rfl⟩⟩

theorem mem_unterminated {q : Char} {text : List Char} : text ∈ (Pattern.unterminated q).language ↔
    ∃ body ∈ quotedRun q, text = q :: body := by
  rw [Pattern.language, mem_singleton_mul]
  exact exists_congr fun body => and_comm

/-! ### Patterns by their first character -/

theorem isWordPart_of_keyword : (keywords.all fun k => k.1.toList.all isWordPart) = true := rfl

theorem isWordStart_of_keyword : (keywords.all fun k => k.1.toList.head?.any isWordStart) = true := rfl

/-- Whether `c` starts no word, no number and no string. -/
def startsSymbol (c : Char) : Bool :=
  !isWordStart c && !c.isDigit && c != '"' && c != '\''

theorem startsSymbol_of_symbol : (symbols.all fun s => s.1.head?.any startsSymbol) = true := rfl

/-- The first character `c` of a text that a pattern matches, and the part after it. -/
inductive Pattern.Matches (c : Char) (part : List Char) : Pattern → Prop
  | keyword {kind} (hstart : isWordStart c = true) (hpart : ∀ d ∈ part, isWordPart d = true)
    (h : (String.ofList (c :: part), kind) ∈ keywords) : Matches c part (.fixed (c :: part) kind)
  | identifier (hstart : isWordStart c = true) (hpart : ∀ d ∈ part, isWordPart d = true) : Matches c part .identifier
  | number (hstart : c.isDigit = true) (hpart : ∀ d ∈ part, isNumberPart d = true) : Matches c part .number
  | string {body text} (hquote : c = '"' ∨ c = '\'') (h : Text.Unescapes c body text) (hpart : part = body ++ [c]) :
    Matches c part (.string c)
  | unterminated {text} (hquote : c = '"' ∨ c = '\'') (h : Text.Unescapes c part text) :
    Matches c part (.unterminated c)
  | symbol {kind} (hstart : startsSymbol c = true) (h : (c :: part, kind) ∈ symbols) :
    Matches c part (.fixed (c :: part) kind)

theorem Pattern.Matches.fits {c : Char} {part : List Char} {pattern : Pattern} (h : pattern.Matches c part) :
    pattern ∈ patterns ∧ c :: part ∈ pattern.language := by
  cases h with
  | keyword _ _ h =>
    have hmem : _ ∈ keywords.map fun k => Pattern.fixed k.1.toList k.2 := List.mem_map_of_mem h
    rw [String.toList_ofList] at hmem
    exact ⟨List.mem_append_left _ (List.mem_append_right _ hmem), rfl⟩
  | identifier hstart hpart => exact ⟨by simp [patterns], mem_identifier.mpr ⟨_, _, rfl, hstart, hpart⟩⟩
  | number hstart hpart => exact ⟨by simp [patterns], mem_number.mpr ⟨_, _, rfl, hstart, hpart⟩⟩
  | string hquote h hpart =>
    refine ⟨?_, mem_string.mpr ⟨_, mem_quotedRun.mpr ⟨_, h⟩, by rw [hpart]⟩⟩
    rcases hquote with rfl | rfl <;> simp [patterns]
  | unterminated hquote h =>
    refine ⟨?_, mem_unterminated.mpr ⟨_, mem_quotedRun.mpr ⟨_, h⟩, rfl⟩⟩
    rcases hquote with rfl | rfl <;> simp [patterns]
  | symbol _ h => exact ⟨by simp [patterns, h], rfl⟩

theorem Pattern.matches_of_mem {pattern : Pattern} {text : List Char} (hmem : pattern ∈ patterns)
    (htext : text ∈ pattern.language) : ∃ c part, text = c :: part ∧ pattern.Matches c part := by
  simp only [patterns, List.mem_append, List.mem_map, List.mem_cons, List.not_mem_nil, or_false, or_assoc] at hmem
  rcases hmem with ⟨s, hs, rfl⟩ | ⟨k, hk, rfl⟩ | rfl | rfl | hquoted
  · obtain rfl : text = s.1 := htext
    obtain ⟨c, hc, hstart⟩ := (Option.any_eq_true _ _).mp (List.all_eq_true.mp startsSymbol_of_symbol s hs)
    obtain ⟨part, hpart⟩ := List.head?_eq_some_iff.mp hc
    rw [hpart]
    exact ⟨c, part, rfl, .symbol hstart (hpart ▸ hs)⟩
  · obtain rfl : text = k.1.toList := htext
    obtain ⟨c, hc, hstart⟩ := (Option.any_eq_true _ _).mp (List.all_eq_true.mp isWordStart_of_keyword k hk)
    obtain ⟨part, hpart⟩ := List.head?_eq_some_iff.mp hc
    have hparts := List.all_eq_true.mp (List.all_eq_true.mp isWordPart_of_keyword k hk)
    rw [hpart] at hparts ⊢
    refine ⟨c, part, rfl, .keyword hstart (fun d hd => hparts d (List.mem_cons_of_mem c hd)) ?_⟩
    rw [← hpart, String.ofList_toList]
    exact hk
  · obtain ⟨c, part, rfl, hstart, hpart⟩ := mem_identifier.mp htext
    exact ⟨c, part, rfl, .identifier hstart hpart⟩
  · obtain ⟨c, part, rfl, hstart, hpart⟩ := mem_number.mp htext
    exact ⟨c, part, rfl, .number hstart hpart⟩
  · have hquote : ∃ q, (q = '"' ∨ q = '\'') ∧ (pattern = .string q ∨ pattern = .unterminated q) := by
      rcases hquoted with rfl | rfl | rfl | rfl
      exacts [⟨_, .inl rfl, .inl rfl⟩, ⟨_, .inr rfl, .inl rfl⟩, ⟨_, .inl rfl, .inr rfl⟩, ⟨_, .inr rfl, .inr rfl⟩]
    obtain ⟨q, hq, rfl | rfl⟩ := hquote
    · obtain ⟨body, hbody, rfl⟩ := mem_string.mp htext
      obtain ⟨value, hbody⟩ := mem_quotedRun.mp hbody
      exact ⟨q, _, rfl, .string hq hbody rfl⟩
    · obtain ⟨body, hbody, rfl⟩ := mem_unterminated.mp htext
      obtain ⟨value, hbody⟩ := mem_quotedRun.mp hbody
      exact ⟨q, _, rfl, .unterminated hq hbody⟩

/-! ### The longest match -/

theorem startsSymbol_iff {c : Char} : startsSymbol c = true ↔
    isWordStart c = false ∧ c.isDigit = false ∧ ¬(c = '"' ∨ c = '\'') := by
  simp [startsSymbol, and_assoc]

section Longest
variable {c : Char} {cs part : List Char} {pattern : Pattern}

theorem LongestMatch.of_matches (h : pattern.Matches c part) (hstart : part <+: cs)
    (hlongest : ∀ {p other}, Pattern.Matches c other p → other <+: cs → other.length ≤ part.length)
    (hfixed : ∀ {kind}, (Pattern.fixed (c :: part) kind).Matches c part → pattern = .fixed (c :: part) kind) :
    LongestMatch (c :: cs) (c :: part) pattern where
  mem := h.fits.1
  fits := h.fits.2
  start := List.cons_prefix_cons.mpr ⟨rfl, hstart⟩
  longest p hp text htext hinitial := by
    obtain ⟨d, other, rfl, hmatches⟩ := Pattern.matches_of_mem hp htext
    obtain ⟨rfl, hother⟩ := List.cons_prefix_cons.mp hinitial
    exact Nat.succ_le_succ (hlongest hmatches hother)
  fixed_first kind hkind := by
    obtain ⟨d, other, hcons, hmatches⟩ := Pattern.matches_of_mem hkind rfl
    cases hcons
    exact hfixed hmatches

theorem Pattern.Matches.word (h : pattern.Matches c part) (hc : isWordStart c = true) :
    (∀ d ∈ part, isWordPart d = true) ∧ (pattern = .identifier ∨
      ∃ kind, pattern = .fixed (c :: part) kind ∧ (String.ofList (c :: part), kind) ∈ keywords) := by
  cases h with
  | keyword _ hpart h => exact ⟨hpart, .inr ⟨_, rfl, h⟩⟩
  | identifier _ hpart => exact ⟨hpart, .inl rfl⟩
  | number hstart =>
    rw [isWordStart_of_isDigit hstart] at hc
    cases hc
  | string hquote | unterminated hquote => rcases hquote with rfl | rfl <;> exact absurd hc (by decide)
  | symbol hstart =>
    rw [(startsSymbol_iff.mp hstart).1] at hc
    cases hc

theorem Pattern.Matches.digits (h : pattern.Matches c part) (hc : c.isDigit = true) :
    (∀ d ∈ part, isNumberPart d = true) ∧ pattern = .number := by
  cases h with
  | keyword hstart | identifier hstart =>
    rw [isWordStart_of_isDigit hc] at hstart
    cases hstart
  | number _ hpart => exact ⟨hpart, rfl⟩
  | string hquote | unterminated hquote => rcases hquote with rfl | rfl <;> exact absurd hc (by decide)
  | symbol hstart =>
    rw [(startsSymbol_iff.mp hstart).2.1] at hc
    cases hc

theorem Pattern.Matches.quoted (h : pattern.Matches c part) (hc : c = '"' ∨ c = '\'') :
    (pattern = .string c ∧ ∃ body text, Text.Unescapes c body text ∧ part = body ++ [c]) ∨
      (pattern = .unterminated c ∧ ∃ text, Text.Unescapes c part text) := by
  cases h with
  | keyword hstart | identifier hstart | number hstart => rcases hc with rfl | rfl <;> exact absurd hstart (by decide)
  | string _ h hpart => exact .inl ⟨rfl, _, _, h, hpart⟩
  | unterminated _ h => exact .inr ⟨rfl, _, h⟩
  | symbol hstart => exact absurd hc (startsSymbol_iff.mp hstart).2.2

theorem Pattern.Matches.symbols (h : pattern.Matches c part) (hc : startsSymbol c = true) :
    ∃ kind, pattern = .fixed (c :: part) kind ∧ (c :: part, kind) ∈ symbols := by
  obtain ⟨hword, hdigit, hquote⟩ := startsSymbol_iff.mp hc
  cases h with
  | keyword hstart | identifier hstart =>
    rw [hword] at hstart
    cases hstart
  | number hstart =>
    rw [hdigit] at hstart
    cases hstart
  | string hstart | unterminated hstart => exact absurd hstart hquote
  | symbol _ h => exact ⟨_, rfl, h⟩

theorem lookup_keyword : ∀ k ∈ keywords, keywords.lookup k.1 = some k.2 := by
  decide

theorem wordKind_eq_iff {word : String} {kind : TokenKind} : kind = wordKind word ↔
    (word, kind) ∈ keywords ∨ kind = .identifier ∧ ∀ k ∈ keywords, k.1 ≠ word := by
  rw [wordKind]
  cases hlookup : keywords.lookup word with
  | none =>
    have hnone : ∀ k ∈ keywords, k.1 ≠ word := by
      rintro k hk rfl
      rw [lookup_keyword k hk] at hlookup
      cases hlookup
    exact ⟨fun h => .inr ⟨h, hnone⟩, fun h => h.elim (fun hmem => absurd rfl (hnone _ hmem)) And.left⟩
  | some found =>
    obtain ⟨before, after, hsplit, -⟩ := List.lookup_eq_some_iff.mp hlookup
    have hmem : (word, found) ∈ keywords := by simp [hsplit]
    constructor
    · rintro rfl
      exact .inl hmem
    · rintro (h | ⟨-, hnone⟩)
      · rw [lookup_keyword _ h] at hlookup
        cases hlookup
        rfl
      · exact absurd rfl (hnone _ hmem)

theorem Pattern.Matches.lookup {kind : TokenKind} (h : (Pattern.fixed (c :: part) kind).Matches c part)
    (hc : isWordStart c = true) : keywords.lookup (.ofList (c :: part)) = some kind := by
  obtain ⟨-, hident | ⟨kind', hkind, hmem⟩⟩ := h.word hc
  · cases hident
  · cases hkind
    exact lookup_keyword _ hmem

/-- A word is taken whole. It is a keyword if it is exactly that. -/
theorem taken_word (hc : isWordStart c = true) : Taken (c :: cs) (c :: cs.takeWhile isWordPart)
    (.ok (wordKind (.ofList (c :: cs.takeWhile isWordPart)), .ofList (c :: cs.takeWhile isWordPart))) := by
  have hstart : cs.takeWhile isWordPart <+: cs := List.takeWhile_prefix _
  have hpart : ∀ d ∈ cs.takeWhile isWordPart, isWordPart d = true := fun d hd => List.mem_takeWhile_imp hd
  have hlongest {p : Pattern} {other : List Char} (h : p.Matches c other) (hother : other <+: cs) :
      other.length ≤ (cs.takeWhile isWordPart).length :=
    (prefix_takeWhile hother (h.word hc).1).length_le
  generalize cs.takeWhile isWordPart = part at hstart hpart hlongest ⊢
  rw [wordKind]
  cases hkind : keywords.lookup (.ofList (c :: part)) with
  | none =>
    refine ⟨.identifier, .of_matches (.identifier hc hpart) hstart hlongest fun h => ?_, .identifier⟩
    have hlookup := h.lookup hc
    rw [hkind] at hlookup
    cases hlookup
  | some kind =>
    obtain ⟨before, after, hsplit, -⟩ := List.lookup_eq_some_iff.mp hkind
    have hmem : (String.ofList (c :: part), kind) ∈ keywords := by simp [hsplit]
    refine ⟨.fixed (c :: part) kind, .of_matches (.keyword hc hpart hmem) hstart hlongest fun h => ?_, .fixed⟩
    have hlookup := h.lookup hc
    rw [hkind] at hlookup
    cases hlookup
    rfl

/-- Digits are taken with all that can go on a number, also where that is no number. -/
theorem taken_number (hc : c.isDigit = true) (cs : List Char) :
    ∃ result, Taken (c :: cs) (c :: cs.takeWhile isNumberPart) result ∧
    result = if (Number.ofString? (.ofList (c :: cs.takeWhile isNumberPart))).isSome then
      .ok (.number, .ofList (c :: cs.takeWhile isNumberPart))
    else .error (.invalidNumber (.ofList (c :: cs.takeWhile isNumberPart))) := by
  have hpart : ∀ d ∈ cs.takeWhile isNumberPart, isNumberPart d = true := fun d hd => List.mem_takeWhile_imp hd
  have hmatch : LongestMatch (c :: cs) (c :: cs.takeWhile isNumberPart) .number := by
    refine .of_matches (.number hc hpart) (List.takeWhile_prefix _) (fun h hother => ?_) fun h => ?_
    · exact (prefix_takeWhile hother (h.digits hc).1).length_le
    · exact (h.digits hc).2.symm
  refine ⟨_, ⟨.number, hmatch, ?_⟩, rfl⟩
  split
  · rename_i hvalue
    exact .number hvalue
  · rename_i hvalue
    exact .invalidNumber (Option.not_isSome_iff_eq_none.mp hvalue)

/-! ### Strings -/

theorem Text.Unescapes.length_le {q : Char} (hq : q ≠ '\\') {body text : List Char} (h : Text.Unescapes q body text) :
    ∀ {other value rest : List Char}, Text.Unescapes q other value → other <+: body ++ q :: rest →
      other.length ≤ body.length := by
  induction h with
  | nil =>
    intro other value rest hother hinitial
    cases hother with
    | nil => exact Nat.le_refl _
    | plain hquote => exact absurd (List.cons_prefix_cons.mp hinitial).1 hquote
    | escape => exact absurd (List.cons_prefix_cons.mp hinitial).1.symm hq
  | plain hquote hescape _ ih =>
    intro other value rest hother hinitial
    cases hother with
    | nil => exact Nat.zero_le _
    | plain _ _ hother => exact Nat.succ_le_succ (ih hother (List.cons_prefix_cons.mp hinitial).2)
    | escape => exact absurd (List.cons_prefix_cons.mp hinitial).1.symm hescape
  | escape _ _ ih =>
    intro other value rest hother hinitial
    cases hother with
    | nil => exact Nat.zero_le _
    | plain _ hescape => exact absurd (List.cons_prefix_cons.mp hinitial).1 hescape
    | escape _ hother =>
      have hrest := (List.cons_prefix_cons.mp (List.cons_prefix_cons.mp hinitial).2).2
      exact Nat.add_le_add_right (ih hother hrest) 2

theorem ne_backslash (hquote : c = '"' ∨ c = '\'') : c ≠ '\\' := by
  rcases hquote with rfl | rfl <;> decide

/-- A string is taken up to the first quote of its own that is not escaped. -/
theorem taken_string (hquote : c = '"' ∨ c = '\'') {body text : List Char} (h : Text.Unescapes c body text)
    (hclosed : body ++ [c] <+: cs) : Taken (c :: cs) (c :: (body ++ [c])) (.ok (.string, .ofList text)) := by
  have hrun {other value : List Char} (hother : Text.Unescapes c other value) (hinitial : other <+: cs) :
      other.length ≤ body.length := by
    obtain ⟨rest, rfl⟩ := hclosed
    rw [List.append_assoc] at hinitial
    exact h.length_le (ne_backslash hquote) hother hinitial
  refine ⟨.string c, .of_matches (.string hquote h rfl) hclosed (fun hmatch hother => ?_) fun hmatch => ?_, .string h⟩
  · rw [List.length_append]
    rcases hmatch.quoted hquote with ⟨-, other, value, hbody, rfl⟩ | ⟨-, value, hbody⟩
    · rw [List.length_append]
      exact Nat.succ_le_succ (hrun hbody ((List.prefix_append _ _).trans hother))
    · exact Nat.le_succ_of_le (hrun hbody hother)
  · rcases hmatch.quoted hquote with ⟨hstring, -⟩ | ⟨hstring, -⟩ <;> cases hstring

/-- Of the starts of a text with a property, one is the longest. -/
theorem exists_longest {P : List Char → Prop} (hnil : P []) (cs : List Char) :
    ∃ part, P part ∧ part <+: cs ∧ ∀ other, P other → other <+: cs → other.length ≤ part.length := by
  classical
  have hzero : P (cs.take 0) := hnil
  refine ⟨_, Nat.findGreatest_spec (P := fun n => P (cs.take n)) (Nat.zero_le cs.length) hzero,
    List.take_prefix _ _, ?_⟩
  intro other hother hinitial
  rw [List.prefix_iff_eq_take.mp hinitial] at hother
  rw [List.length_take, Nat.min_eq_left (Nat.findGreatest_le _)]
  exact Nat.le_findGreatest hinitial.length_le hother

/-- Where no quote closes a string, the string is at fault. -/
theorem taken_unterminated (hquote : c = '"' ∨ c = '\'')
    (hopen : ∀ body text, Text.Unescapes c body text → ¬body ++ [c] <+: cs) :
    ∃ raw, Taken (c :: cs) raw (.error .unterminatedString) := by
  obtain ⟨part, ⟨text, hpart⟩, hinitial, hlongest⟩ :=
    exists_longest (P := fun part => ∃ text, Text.Unescapes c part text) ⟨[], .nil⟩ cs
  refine ⟨c :: part, .unterminated c,
    .of_matches (.unterminated hquote hpart) hinitial (fun hmatch hother => ?_) fun hmatch => ?_, .unterminated⟩
  · rcases hmatch.quoted hquote with ⟨-, other, value, hbody, rfl⟩ | ⟨-, hbody⟩
    · exact absurd hother (hopen _ _ hbody)
    · exact hlongest _ hbody hother
  · rcases hmatch.quoted hquote with ⟨hstring, -⟩ | ⟨hstring, -⟩ <;> cases hstring

/-! ### Symbols -/

/-- A symbol of the table starts no later one. -/
theorem symbols_pairwise : symbols.Pairwise fun a b => ¬a.1 <+: b.1 := by
  decide

theorem symbol_unique : ∀ a ∈ symbols, ∀ b ∈ symbols, a.1 = b.1 → a = b := by
  decide

/-- The first symbol of the table that a text starts with is the longest. -/
theorem length_le_of_find? {text : List Char} {found : List Char × TokenKind}
    (hfind : symbols.find? (fun s => s.1.isPrefixOf text) = some found) {s : List Char × TokenKind} (hs : s ∈ symbols)
    (hinitial : s.1 <+: text) : s.1.length ≤ found.1.length := by
  obtain ⟨hfits, before, after, hsplit, hbefore⟩ := List.find?_eq_some_iff_append.mp hfind
  rw [hsplit] at hs
  rcases List.mem_append.mp hs with hearlier | hlater
  · have hnot := hbefore s hearlier
    rw [List.isPrefixOf_iff_prefix.mpr hinitial] at hnot
    cases hnot
  · rcases List.mem_cons.mp hlater with rfl | hlater
    · exact Nat.le_refl _
    · have hpairwise := List.pairwise_append.mp (hsplit ▸ symbols_pairwise)
      have hnot := (List.pairwise_cons.mp hpairwise.2.1).1 s hlater
      rcases List.prefix_or_prefix_of_prefix (List.isPrefixOf_iff_prefix.mp hfits) hinitial with hlonger | hshorter
      · exact absurd hlonger hnot
      · exact hshorter.length_le

/-- Elsewhere the longest symbol of the table is taken. -/
theorem taken_symbol {kind : TokenKind} (hc : startsSymbol c = true)
    (hfind : symbols.find? (fun s => s.1.isPrefixOf (c :: cs)) = some (c :: part, kind)) :
    Taken (c :: cs) (c :: part) (.ok (kind, .ofList (c :: part))) := by
  have hmem : (c :: part, kind) ∈ symbols := List.mem_of_find?_eq_some hfind
  have hfits := List.find?_some hfind
  have hinitial : c :: part <+: c :: cs := List.isPrefixOf_iff_prefix.mp hfits
  refine ⟨.fixed (c :: part) kind, .of_matches (.symbol hc hmem) (List.cons_prefix_cons.mp hinitial).2
    (fun hmatch hother => ?_) fun hmatch => ?_, .fixed⟩
  · obtain ⟨_, -, hsymbol⟩ := hmatch.symbols hc
    exact Nat.le_of_succ_le_succ (length_le_of_find? hfind hsymbol (List.cons_prefix_cons.mpr ⟨rfl, hother⟩))
  · obtain ⟨_, hkind, hsymbol⟩ := hmatch.symbols hc
    cases hkind
    cases symbol_unique _ hmem _ hsymbol rfl
    rfl

/-! ### The token that is taken -/

/-- The token that starts a text is the longest match there. -/
theorem taken_of_lexeme {l : Lexeme} (h : lexeme c cs = .ok l) :
    Taken (c :: cs) (c :: cs.take l.extra) (.ok (l.kind, l.text)) := by
  rw [lexeme] at h
  split at h
  · rename_i hstart
    cases h
    dsimp only
    rw [take_length_takeWhile]
    exact taken_word hstart
  · rename_i hword
    split at h
    · rename_i hdigit
      dsimp only at h
      split at h
      · rename_i hvalue
        cases h
        obtain ⟨_, htaken, rfl⟩ := taken_number hdigit cs
        rw [if_pos hvalue] at htaken
        dsimp only
        rw [take_length_takeWhile]
        exact htaken
      · cases h
    · rename_i hdigit
      split at h
      · rename_i hquote
        split at h
        · rename_i text size hread
          cases h
          obtain ⟨body, hbody, -, hraw⟩ := Text.readQuoted_unescapes hread
          dsimp only
          rw [hraw]
          exact taken_string hquote hbody (hraw ▸ List.take_prefix size cs)
        · cases h
      · rename_i hquote
        split at h
        · rename_i symbol kind hfind
          cases h
          have hstart : startsSymbol c = true :=
            startsSymbol_iff.mpr ⟨Bool.eq_false_iff.mpr hword, Bool.eq_false_iff.mpr hdigit, hquote⟩
          obtain ⟨d, hd, -⟩ := (Option.any_eq_true _ _).mp
            (List.all_eq_true.mp startsSymbol_of_symbol _ (List.mem_of_find?_eq_some hfind))
          obtain ⟨part, rfl⟩ := List.head?_eq_some_iff.mp hd
          have hfits := List.find?_some hfind
          obtain ⟨rfl, rest, rfl⟩ := List.cons_prefix_cons.mp (List.isPrefixOf_iff_prefix.mp hfits)
          dsimp only
          rw [List.length_cons, Nat.add_sub_cancel, List.take_left]
          exact taken_symbol hstart hfind
        · cases h

/-- Where no token starts, the longest match is at fault, or no pattern matches. -/
theorem taken_of_lexeme_error {fault : LexFault} (h : lexeme c cs = .error fault) :
    (∃ raw, Taken (c :: cs) raw (.error fault)) ∨
      fault = .unexpected c ∧ ∀ p ∈ patterns, ∀ text ∈ p.language, ¬text <+: c :: cs := by
  have hfault := lexeme_error h
  generalize htext : c :: cs = text at hfault
  cases hfault with
  | @unexpected c' cs' hword hdigit hquote hsymbol =>
    cases htext
    refine .inr ⟨rfl, fun p hp text htext hinitial => ?_⟩
    obtain ⟨d, other, rfl, hmatches⟩ := Pattern.matches_of_mem hp htext
    obtain ⟨rfl, hother⟩ := List.cons_prefix_cons.mp hinitial
    have hstart : startsSymbol d = true := startsSymbol_iff.mpr ⟨hword, hdigit, not_or.mpr hquote⟩
    obtain ⟨kind, -, hmem⟩ := hmatches.symbols hstart
    exact hsymbol _ hmem hinitial
  | unterminatedString hquote hopen =>
    cases htext
    exact .inl (taken_unterminated hquote hopen)
  | @invalidNumber c' part rest hstart hpart hend hvalue =>
    cases htext
    obtain ⟨_, htaken, rfl⟩ := taken_number hstart (part ++ rest)
    rw [takeWhile_append_of_head hpart hend, hvalue] at htaken
    exact .inl ⟨_, htaken⟩

/-! ### One token only -/

theorem Text.Unescapes.unique {q : Char} {body text : List Char} (h : Text.Unescapes q body text) :
    ∀ {text' : List Char}, Text.Unescapes q body text' → text = text' := by
  induction h with
  | nil =>
    rintro _ ⟨⟩
    rfl
  | plain _ hescape _ ih =>
    intro text' h'
    cases h' with
    | plain _ _ h' => rw [ih h']
    | escape => exact absurd rfl hescape
  | escape _ _ ih =>
    intro text' h'
    cases h' with
    | plain _ hescape => exact absurd rfl hescape
    | escape _ h' => rw [ih h']

theorem Pattern.Gives.unique {raw : List Char} {result result' : Except LexFault (TokenKind × String)}
    (h : pattern.Gives raw result) (h' : pattern.Gives raw result') : result = result' := by
  cases h with
  | fixed | identifier | unterminated =>
    cases h'
    rfl
  | number hvalue =>
    cases h' with
    | number => rfl
    | invalidNumber hnone =>
      rw [hnone] at hvalue
      cases hvalue
  | invalidNumber hnone =>
    cases h' with
    | number hvalue =>
      rw [hnone] at hvalue
      cases hvalue
    | invalidNumber => rfl
  | @string q body text h =>
    generalize hraw : q :: (body ++ [q]) = raw at h'
    cases h' with
    | string h' =>
      cases List.append_cancel_right (List.cons_inj_right _ |>.mp hraw)
      rw [h.unique h']

/-- A closed string is no open one. -/
theorem Text.Unescapes.not_closed {q : Char} (hq : q ≠ '\\') {body text value : List Char}
    (h : Text.Unescapes q body text) : ¬Text.Unescapes q (body ++ [q]) value := by
  intro hclosed
  have hwithin : body ++ [q] <+: body ++ q :: [] := List.prefix_refl _
  have hle := h.length_le hq hclosed hwithin
  rw [List.length_append] at hle
  exact absurd hle (Nat.not_succ_le_self _)

theorem LongestMatch.pattern_unique {raw : List Char} {pattern' : Pattern} (h : LongestMatch (c :: cs) raw pattern)
    (h' : LongestMatch (c :: cs) raw pattern') : pattern = pattern' := by
  obtain ⟨d, part, rfl, hmatches⟩ := Pattern.matches_of_mem h.mem h.fits
  obtain ⟨_, _, hcons, hmatches'⟩ := Pattern.matches_of_mem h'.mem h'.fits
  cases hcons
  cases hmatches with
  | keyword | symbol => exact (h'.fixed_first _ h.mem).symm
  | identifier hstart =>
    obtain ⟨-, rfl | ⟨kind, rfl, -⟩⟩ := hmatches'.word hstart
    · rfl
    · exact h.fixed_first _ h'.mem
  | number hstart => exact (hmatches'.digits hstart).2.symm
  | string hquote hbody hpart =>
    rcases hmatches'.quoted hquote with ⟨rfl, -⟩ | ⟨-, value, hopen⟩
    · rfl
    · exact absurd (hpart ▸ hopen) (hbody.not_closed (ne_backslash hquote))
  | unterminated hquote hopen =>
    rcases hmatches'.quoted hquote with ⟨-, body, value, hbody, hpart⟩ | ⟨rfl, -⟩
    · exact absurd (hpart ▸ hopen) (hbody.not_closed (ne_backslash hquote))
    · rfl

/-- What is taken is determined. -/
theorem Taken.unique {raw raw' : List Char} {result result' : Except LexFault (TokenKind × String)}
    (h : Taken (c :: cs) raw result) (h' : Taken (c :: cs) raw' result') : raw = raw' ∧ result = result' := by
  obtain ⟨pattern, hmatch, hgives⟩ := h
  obtain ⟨pattern', hmatch', hgives'⟩ := h'
  have hraw : raw = raw' := by
    have hle := hmatch'.longest _ hmatch.mem _ hmatch.fits hmatch.start
    exact (List.prefix_of_prefix_length_le hmatch.start hmatch'.start hle).eq_of_length_le
      (hmatch.longest _ hmatch'.mem _ hmatch'.fits hmatch'.start)
  subst hraw
  cases hmatch.pattern_unique hmatch'
  exact ⟨rfl, hgives.unique hgives'⟩

/-- What is taken for a token is written as tokens of its kind are. -/
theorem Taken.spelled {raw : List Char} {kind : TokenKind} {text : String} (h : Taken cs raw (.ok (kind, text))) :
    kind.Spelled raw text := by
  obtain ⟨pattern, hmatch, hgives⟩ := h
  obtain ⟨c, part, rfl, hmatches⟩ := Pattern.matches_of_mem hmatch.mem hmatch.fits
  cases hmatches with
  | keyword hstart hpart hmem =>
    cases hgives
    rw [wordKind_eq_iff.mpr (.inl hmem)]
    exact .word hstart hpart
  | identifier hstart hpart =>
    cases hgives
    have hkind : TokenKind.identifier = wordKind (.ofList (c :: part)) := by
      refine wordKind_eq_iff.mpr (.inr ⟨rfl, fun k hk hword => ?_⟩)
      have hfixed : Pattern.fixed k.1.toList k.2 ∈ patterns :=
        List.mem_append_left _ (List.mem_append_right _ (List.mem_map_of_mem hk))
      rw [hword, String.toList_ofList] at hfixed
      cases hmatch.fixed_first _ hfixed
    rw [hkind]
    exact .word hstart hpart
  | number hstart hpart =>
    cases hgives with
    | number hvalue => exact .number hstart hpart hvalue
  | string hquote =>
    cases hgives with
    | string hbody => exact .string hquote hbody
  | unterminated => cases hgives
  | symbol _ hmem =>
    cases hgives
    exact .symbol hmem

end Longest

end TemplatedSql
