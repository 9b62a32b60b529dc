import TemplatedSql.Proofs.Token.Cutting
import TemplatedSql.Proofs.Token.Spelling

/-! # The blanks that a text loses

A text between two tags loses the blanks at its start if the tag before it closes with a hyphen, and then those at its
end if the tag after it opens with one. What is dropped stays as tokens of its own. -/

namespace TemplatedSql

/-- How the hyphens beside a text split it: the longest blanks at its start are dropped if the hyphen before it asks for
    that, and then the longest blanks at its end if the hyphen after it does. -/
structure Trims (trimStart trimEnd : Bool) (text left kept right : List Char) : Prop where
  split : text = left ++ (kept ++ right)
  left_blank : Text.allBlank left = true
  left_longest : trimStart = true → ∀ blanks, blanks <+: text → Text.allBlank blanks = true → blanks <+: left
  left_none : trimStart = false → left = []
  right_blank : Text.allBlank right = true
  right_longest : trimEnd = true → ∀ blanks, blanks <:+ kept ++ right → Text.allBlank blanks = true → blanks <:+ right
  right_none : trimEnd = false → right = []

/-- The tokens of the parts of a text, with none for a part that is empty. -/
def partTokens (p : Position) (left kept right : List Char) : List Token :=
  Token.ofText .trimmedWhitespace left p ++ (Token.ofText .text kept (p.after left) ++
    Token.ofText .trimmedWhitespace right (p.after (left ++ kept)))

theorem allBlank_takeWhile (text : List Char) : Text.allBlank (text.takeWhile Text.isBlank) = true :=
  List.all_eq_true.mpr fun _ hc => List.mem_takeWhile_imp hc

/-- A text consists of what is kept and the blanks that it loses at its end. -/
theorem exists_trailing (trimEnd : Bool) (text : List Char) : ∃ kept right, text = kept ++ right ∧
    (if trimEnd then (text.reverse.takeWhile Text.isBlank).reverse else []) = right ∧
    (if trimEnd then Text.trimEnd text else text) = kept := by
  cases trimEnd with
  | false => exact ⟨text, [], (List.append_nil text).symm, rfl, rfl⟩
  | true =>
    refine ⟨_, _, ?_, rfl, rfl⟩
    rw [if_pos rfl, if_pos rfl, Text.trimEnd, ← List.reverse_append, List.takeWhile_append_dropWhile, List.reverse_reverse]

/-- The tokens of a text are those of the parts that the hyphens split it into. -/
theorem exists_trims (trimStart trimEnd : Bool) (text : List Char) : ∃ left kept right,
    Trims trimStart trimEnd text left kept right ∧
      ∀ p, textTokens trimStart trimEnd text p = partTokens p left kept right := by
  obtain ⟨left, rest, hsplit, hleft, -⟩ := exists_leading trimStart text
  obtain ⟨kept, right, hrest, hright, hkept⟩ := exists_trailing trimEnd rest
  refine ⟨left, kept, right, ⟨hrest ▸ hsplit, ?_, ?_, ?_, ?_, ?_, ?_⟩, fun p => ?_⟩
  · cases trimStart <;> subst hleft
    · rfl
    · exact allBlank_takeWhile text
  · rintro rfl blanks hblanks hblank
    exact hleft ▸ prefix_takeWhile hblanks (List.all_eq_true.mp hblank)
  · rintro rfl
    exact hleft.symm
  · cases trimEnd <;> subst hright
    · rfl
    · rw [if_pos rfl, Text.allBlank, List.all_reverse]
      exact allBlank_takeWhile rest.reverse
  · rintro rfl blanks hblanks hblank
    have hreverse : blanks.reverse <+: rest.reverse := List.reverse_prefix.mpr (hrest ▸ hblanks)
    have hlongest := prefix_takeWhile (p := Text.isBlank) hreverse
      fun c hc => List.all_eq_true.mp hblank c (List.mem_reverse.mp hc)
    rw [← hright, if_pos rfl, ← List.reverse_prefix, List.reverse_reverse]
    exact hlongest
  · rintro rfl
    exact hright.symm
  · have hdrop : rest.drop kept.length = right := by rw [hrest, List.drop_left]
    rw [textTokens_of_leading hsplit hleft, partTokens, Position.after_append]
    simp only [textTokens, Bool.false_eq_true, if_false, List.length_nil, List.drop_zero, hkept, hdrop, Token.ofText_nil,
      List.nil_append, Position.after_nil]

end TemplatedSql
