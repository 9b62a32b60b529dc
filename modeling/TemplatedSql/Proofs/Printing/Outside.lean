import TemplatedSql.Proofs.Printing.Scanning

/-! # Cutting what stands outside tags

Outside tags, text is cut into one token that ends where the next tag opens, unless the end of the text opens one
together with the brace there. A tag is cut into its delimiters and what its contents are cut into. -/

namespace TemplatedSql

open TemplatedSql.Grammar (Word)

/-- Outside tags, the characters in front of `rest` are cut into tokens with a property, wherever they stand. -/
def CutsOutside (raw rest : List Char) (P : List Token → Prop) : Prop :=
  ∀ p : Position, ∃ tokens, P tokens ∧
    ∀ more, scanFrom (.outside false) rest (p.after raw) = .ok more →
      scanFrom (.outside false) (raw ++ rest) p = .ok (tokens ++ more)

/-- Tokens of a tag: its delimiters, and tokens with a property between them. -/
def Tagged (opening closing : TokenKind) (P : List Token → Prop) (ts : List Token) : Prop :=
  ∃ (first : Word opening) (inner : List Token) (last : Word closing), ts = first.val :: (inner ++ [last.val]) ∧ P inner

variable {raw raw' rest text : List Char} {P Q : List Token → Prop}

namespace CutsOutside

theorem mono (h : CutsOutside raw rest P) (hP : ∀ ts, P ts → Q ts) : CutsOutside raw rest Q := by
  intro p
  obtain ⟨tokens, htokens, hscan⟩ := h p
  exact ⟨tokens, hP tokens htokens, hscan⟩

theorem nil : CutsOutside [] rest (· = []) :=
  fun _ => ⟨[], rfl, fun _ hmore => hmore⟩

theorem append (h : CutsOutside raw (raw' ++ rest) P) (h' : CutsOutside raw' rest Q) :
    CutsOutside (raw ++ raw') rest (Both P Q) := by
  intro p
  obtain ⟨us, hus, hscan⟩ := h p
  obtain ⟨vs, hvs, hscan'⟩ := h' (p.after raw)
  refine ⟨us ++ vs, ⟨us, vs, rfl, hus, hvs⟩, fun more hmore => ?_⟩
  rw [Position.after_append] at hmore
  rw [List.append_assoc, List.append_assoc]
  exact hscan _ (hscan' more hmore)

end CutsOutside

/-! ### Text -/

theorem Marker.mem_of_ofChar? {c : Char} (h : (Marker.ofChar? c).isSome = true) :
    ['{', c] ∈ [['{', '{'], ['{', '%'], ['{', '#']] := by
  have htags : ∀ m ∈ tagMarks, ['{', m.1] ∈ [['{', '{'], ['{', '%'], ['{', '#']] := by decide
  rcases Marker.eq_of_ofChar? h with rfl | ⟨kind, close, hmark⟩
  · decide
  · exact htags _ hmark

theorem opensNothing_brace : OpensNothing ([] ++ ['{']) := by
  decide

/-- Text that opens nothing, not even with the character after it, goes on to where what comes after it opens a
    tag. -/
theorem textSize_append (h : OpensNothing (text ++ rest.take 1)) :
    textSize (text ++ rest) = text.length + textSize rest := by
  induction text with
  | nil => rw [List.nil_append, List.length_nil, Nat.zero_add]
  | cons c text ih =>
    have hnone : ¬(Marker.ofText? (c :: (text ++ rest))).isSome = true := by
      intro hsome
      obtain ⟨mark, more, heq, hmark⟩ := Marker.ofText?_eq_some hsome
      obtain ⟨rfl, htail⟩ := List.cons.inj heq
      refine h _ (Marker.mem_of_ofChar? hmark) ?_
      have hnext : [mark] <+: text ++ rest.take 1 := by
        cases text with
        | nil =>
          rw [List.nil_append] at htail ⊢
          rw [htail]
          exact List.prefix_rfl
        | cons d text =>
          obtain ⟨rfl, -⟩ := List.cons.inj htail
          exact ⟨text ++ rest.take 1, rfl⟩
      exact ((List.prefix_cons_inj '{').mpr hnext).isInfix
    rw [List.cons_append, textSize, if_neg hnone, ih (h.of_infix (List.suffix_cons _ _).isInfix), List.length_cons]
    omega

theorem scanFrom_open {mark : Char} {kind close : TokenKind} (hmark : (mark, kind, close) ∈ tagMarks)
    (htext : OpensNothing (text ++ ['{'])) (p : Position) :
    scanFrom (.outside false) (text ++ '{' :: mark :: ' ' :: rest) p =
      (scanFrom (.inside ⟨close, p.after text⟩) (' ' :: rest) ((p.after text).after ['{', mark])).map
        (Token.ofText .text text p ++ ⟨kind, .ofList ['{', mark], p.after text⟩ :: ·) := by
  have hopens : textSize ('{' :: mark :: ' ' :: rest) = 0 := by
    simp only [tagMarks, List.mem_cons, Prod.mk.injEq, List.not_mem_nil, or_false] at hmark
    rcases hmark with ⟨rfl, -⟩ | ⟨rfl, -⟩ <;> rfl
  have hsize : textSize (text ++ '{' :: mark :: ' ' :: rest) = text.length := by
    rw [textSize_append (by exact htext), hopens, Nat.add_zero]
  have hfirst : Opens (text ++ '{' :: mark :: ' ' :: rest) text mark [] (' ' :: rest) :=
    ⟨by rw [hsize, List.take_left], by rw [hsize, List.drop_left, List.nil_append], rfl⟩
  rw [scanFrom_tag hmark hfirst, ← textTokens_keep]
  rfl

theorem scanFrom_outside_nil (p : Position) : scanFrom (.outside false) [] p = .ok [⟨.eof, "", p⟩] := by
  rw [scanFrom]
  rfl

theorem single_ofText (hne : text ≠ []) (p : Position) :
    Single .text (.ofList text) (Token.ofText .text text p) := by
  cases text with
  | nil => exact absurd rfl hne
  | cons c text => exact ⟨⟨⟨.text, .ofList (c :: text), p⟩, rfl⟩, rfl, rfl⟩

/-- Text up to a tag is cut into one token. -/
theorem cuts_text {mark : Char} (hmark : mark = '{' ∨ mark = '%') (hne : text ≠ []) (htext : OpensNothing (text ++ ['{'])) :
    CutsOutside text ('{' :: mark :: ' ' :: rest) (Single .text (.ofList text)) := by
  intro p
  refine ⟨Token.ofText .text text p, single_ofText hne p, fun more hmore => ?_⟩
  obtain ⟨kind, close, hopens⟩ : ∃ kind close, (mark, kind, close) ∈ tagMarks := by
    rcases hmark with rfl | rfl
    · exact ⟨.exprOpen, .exprClose, by decide⟩
    · exact ⟨.stmtOpen, .stmtClose, by decide⟩
  rw [← List.nil_append ('{' :: mark :: ' ' :: rest), scanFrom_open hopens opensNothing_brace] at hmore
  obtain ⟨tokens, hinside, rfl⟩ := map_eq_ok_iff.mp hmore
  rw [scanFrom_open hopens htext]
  exact map_eq_ok_iff.mpr ⟨tokens, hinside, rfl⟩

/-- Text up to the end is cut into one token. -/
theorem cuts_text_end (hne : text ≠ []) (htext : OpensNothing text) :
    CutsOutside text [] (Single .text (.ofList text)) := by
  intro p
  refine ⟨Token.ofText .text text p, single_ofText hne p, fun more hmore => ?_⟩
  have hsize : textSize text = text.length := by
    have hlast : textSize (text ++ []) = text.length + textSize [] :=
      textSize_append (by rwa [List.take_nil, List.append_nil])
    rwa [List.append_nil] at hlast
  rw [scanFrom_outside_nil] at hmore
  cases hmore
  rw [List.append_nil, scanFrom_end (by rw [hsize, List.drop_length]), textTokens_keep]

/-! ### Tags -/

theorem scanFrom_close {close : List Char} {closing : TokenKind}
    (hclose : (close, closing) ∈ [(['}', '}'], .exprClose), (['%', '}'], .stmtClose)]) {start p : Position}
    {more : List Token} (h : scanFrom (.outside false) rest ((p.next ' ').after close) = .ok more) :
    scanFrom (.inside ⟨closing, start⟩) (' ' :: (close ++ rest)) p =
      .ok (⟨closing, .ofList close, p.next ' '⟩ :: more) := by
  simp only [List.mem_cons, Prod.mk.injEq, List.not_mem_nil, or_false] at hclose
  have hgap : isGap ' ' = true ∧ isGap '}' = false ∧ isGap '%' = false := by decide
  rw [scanFrom, if_pos hgap.1]
  rcases hclose with ⟨rfl, rfl⟩ | ⟨rfl, rfl⟩
  · have hlexeme : lexeme '}' ('}' :: rest) = .ok ⟨.exprClose, "\x7d\x7d", 1⟩ := rfl
    rw [List.cons_append, List.singleton_append, scanFrom, hgap.2.1, if_neg Bool.false_ne_true, hlexeme]
    exact bind_eq_ok_iff.mpr ⟨more, h, rfl⟩
  · have hlexeme : lexeme '%' ('}' :: rest) = .ok ⟨.stmtClose, "%\x7d", 1⟩ := rfl
    rw [List.cons_append, List.singleton_append, scanFrom, hgap.2.2, if_neg Bool.false_ne_true, hlexeme]
    exact bind_eq_ok_iff.mpr ⟨more, h, rfl⟩

/-- What stands between the delimiters of a tag starts and ends with a blank. -/
theorem cuts_tag {mark : Char} {opening closing : TokenKind} (hmark : (mark, opening, closing) ∈ tagMarks)
    {close : List Char} (hclose : (close, closing) ∈ [(['}', '}'], .exprClose), (['%', '}'], .stmtClose)])
    {inner : List Char} (h : Cuts inner (' ' :: (close ++ rest)) P) :
    CutsOutside ('{' :: mark :: ' ' :: (inner ++ ' ' :: close)) rest (Tagged opening closing P) := by
  intro p
  obtain ⟨tokens, htokens, hscan⟩ := h.gap (c := ' ') rfl ⟨closing, p⟩ (p.after ['{', mark])
  let q := ((p.after ['{', mark]).after (' ' :: inner)).next ' '
  refine ⟨⟨opening, .ofList ['{', mark], p⟩ :: (tokens ++ [⟨closing, .ofList close, q⟩]),
    ⟨⟨_, rfl⟩, tokens, ⟨_, rfl⟩, rfl, htokens⟩, fun more hmore => ?_⟩
  have hsplit : '{' :: mark :: ' ' :: (inner ++ ' ' :: close) =
      ['{', mark] ++ ((' ' :: inner) ++ (' ' :: close)) := by
    simp
  rw [hsplit, Position.after_append, Position.after_append] at hmore
  have hinside := hscan _ (scanFrom_close hclose hmore)
  have hchars : '{' :: mark :: ' ' :: (inner ++ ' ' :: close) ++ rest =
      [] ++ '{' :: mark :: ' ' :: (inner ++ ' ' :: (close ++ rest)) := by
    simp
  rw [hchars, scanFrom_open hmark opensNothing_brace]
  refine bind_eq_ok_iff.mpr ⟨_, hinside, ?_⟩
  simp [Token.ofText, q]

end TemplatedSql
