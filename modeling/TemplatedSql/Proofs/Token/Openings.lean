import TemplatedSql.Proofs.Token.Cutting

/-! # What opens outside tags

Outside tags the text up to the first opening is cut off together with the opening: that of a tag, or that of a comment
with all of the comment. A comment ends at the first place where one can end. -/

namespace TemplatedSql

/-- No tag or comment opens in a text. -/
def OpensNothing (cs : List Char) : Prop :=
  ∀ opening ∈ [['{', '{'], ['{', '%'], ['{', '#']], ¬opening <:+: cs

instance (cs : List Char) : Decidable (OpensNothing cs) :=
  inferInstanceAs (Decidable (∀ opening ∈ [['{', '{'], ['{', '%'], ['{', '#']], ¬opening <:+: cs))

/-! ### Text -/

theorem OpensNothing.of_infix {cs ds : List Char} (h : OpensNothing ds) (hwithin : cs <:+: ds) : OpensNothing cs :=
  fun opening hopening hcs => h opening hopening (hcs.trans hwithin)

/-- No tag opens before the place where the first one is said to open. -/
theorem opensNothing_take_textSize_succ (cs : List Char) : OpensNothing (cs.take (textSize cs + 1)) := by
  have hopening : ∀ opening ∈ [['{', '{'], ['{', '%'], ['{', '#']], opening.length = 2 ∧
      ∀ rest, (Marker.ofText? (opening ++ rest)).isSome = true := by
    simp [Marker.ofText?, Marker.ofChar?]
  induction cs with
  | nil =>
    intro opening hmem hwithin
    have hlength := hwithin.length_le
    rw [(hopening opening hmem).1] at hlength
    exact absurd hlength (by simp)
  | cons c cs ih =>
    intro opening hmem hwithin
    rw [textSize] at hwithin
    split at hwithin
    · have hlength := hwithin.length_le
      rw [(hopening opening hmem).1] at hlength
      exact absurd hlength (by simp)
    · rename_i hnone
      rcases List.infix_cons_iff.mp hwithin with hhere | hlater
      · -- What opens right here would open in the whole text as well.
        obtain ⟨rest, hrest⟩ := hhere.trans (List.take_prefix (textSize cs + 2) (c :: cs))
        exact hnone (hrest ▸ (hopening opening hmem).2 rest)
      · exact ih opening hmem hlater

theorem opensNothing_take_textSize (cs : List Char) : OpensNothing (cs.take (textSize cs)) :=
  OpensNothing.of_infix (opensNothing_take_textSize_succ cs) (List.take_prefix_take_left (Nat.le_succ _)).isInfix

/-! ### Openings -/

/-- In a text the first tag or comment opens after `text`, with the second character `mark` and, if there is one, the
    hyphen. -/
structure FirstOpening (cs text : List Char) (mark : Char) (hyphen body : List Char) : Prop where
  split : cs = text ++ '{' :: mark :: (hyphen ++ body)
  first : OpensNothing (text ++ ['{'])
  hyphen : hyphen = ['-'] ∨ hyphen = [] ∧ body.head? ≠ some '-'

theorem Opens.firstOpening {cs text hyphen body : List Char} {mark : Char} (h : Opens cs text mark hyphen body) :
    FirstOpening cs text mark hyphen body where
  split := h.split
  first := by
    have hfirst := opensNothing_take_textSize_succ cs
    rw [List.take_add, h.take_eq, h.drop_eq] at hfirst
    exact hfirst
  hyphen := by
    have hhyphen := h.hyphen_eq
    split at hhyphen
    · rename_i hhead
      obtain ⟨rest, hrest⟩ := List.head?_eq_some_iff.mp hhead
      rw [hrest] at hhyphen
      exact .inl hhyphen.symm
    · rename_i hhead
      obtain rfl : [] = hyphen := hhyphen
      exact .inr ⟨rfl, hhead⟩

/-! ### Comments -/

/-- A text has nothing in it that ends a comment. -/
def EndsNoComment (cs : List Char) : Prop :=
  ¬['#', '}'] <:+: cs

theorem commentSize?_eq_none {cs : List Char} (h : commentSize? cs = none) : EndsNoComment cs := by
  induction cs with
  | nil => exact fun hwithin => absurd hwithin.length_le (by simp)
  | cons c cs ih =>
    rw [commentSize?] at h
    split at h
    · cases h
    · rename_i hnone
      intro hwithin
      rcases List.infix_cons_iff.mp hwithin with hhere | hlater
      · exact hnone (List.isPrefixOf_iff_prefix.mpr hhere)
      · exact ih (Option.map_eq_none_iff.mp h) hlater

/-- What is said to stand before the end of a comment does, and nothing in it ends the comment. -/
theorem commentSize?_eq_some {cs : List Char} {n : Nat} (h : commentSize? cs = some n) :
    ∃ inner more, cs = inner ++ ['#', '}'] ++ more ∧ inner.length = n ∧ EndsNoComment inner := by
  induction cs generalizing n with
  | nil => cases h
  | cons c cs ih =>
    rw [commentSize?] at h
    split at h
    · rename_i hends
      obtain ⟨more, hmore⟩ := List.isPrefixOf_iff_prefix.mp hends
      cases h
      exact ⟨[], more, hmore.symm, rfl, fun hwithin => absurd hwithin.length_le (by simp)⟩
    · rename_i hnone
      obtain ⟨n, hn, rfl⟩ := Option.map_eq_some_iff.mp h
      obtain ⟨inner, more, rfl, rfl, hinner⟩ := ih hn
      refine ⟨c :: inner, more, rfl, rfl, fun hwithin => ?_⟩
      rcases List.infix_cons_iff.mp hwithin with hhere | hlater
      · exact hnone (List.isPrefixOf_iff_prefix.mpr (hhere.trans ⟨['#', '}'] ++ more, by simp⟩))
      · exact hinner hlater

/-- A comment is cut off together with the text before it, and a hyphen at its end drops the blanks after it. -/
theorem scanFrom_closed_comment {trim : Bool} {cs text hyphen inner more : List Char} {p : Position}
    (h : Opens cs text '#' hyphen (inner ++ ['#', '}'] ++ more))
    (hsize : commentSize? (inner ++ ['#', '}'] ++ more) = some inner.length) :
    let comment := '{' :: '#' :: (hyphen ++ inner ++ ['#', '}'])
    scanFrom (.outside trim) cs p =
      (scanFrom (.outside (inner.getLast? = some '-')) more ((p.after text).after comment)).map
        (textTokens trim (!hyphen.isEmpty) text p ++ ⟨.comment, .ofList comment, p.after text⟩ :: ·) := by
  have hinner : (inner ++ ['#', '}'] ++ more).take inner.length = inner := by
    rw [List.append_assoc, List.take_left]
  have hends : (inner ++ ['#', '}']).length = inner.length + 2 := List.length_append
  have hcomment : '{' :: '#' :: hyphen ++ (inner ++ ['#', '}']) = '{' :: '#' :: (hyphen ++ inner ++ ['#', '}']) := by
    rw [List.append_assoc]
    rfl
  rw [scanFrom_comment h, hsize]
  dsimp only
  rw [← hends, List.take_left, List.drop_left, hinner, hcomment]

end TemplatedSql
