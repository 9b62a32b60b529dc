import Mathlib.Data.List.TakeWhile
import TemplatedSql.Token.Locator

/-! # The positions that a locator finds

The position of a place has one more line than there are line feeds before the place, and one more column than there
are characters since the last of them. A locator finds this position by adding up what was passed since its cursor,
or by counting from the start of a line; both come to the same, so the order of the questions does not matter. -/

namespace TemplatedSql

/-! ### Bytes and characters -/

namespace Text

theorem byteCount_append (cs ds : List Char) : byteCount (cs ++ ds) = byteCount cs + byteCount ds := by
  induction cs with
  | nil => exact (Nat.zero_add _).symm
  | cons c cs ih => rw [List.cons_append, byteCount, byteCount, ih, Nat.add_assoc]

theorem byteCount_pos {cs : List Char} (h : cs ≠ []) : 0 < byteCount cs := by
  obtain ⟨c, cs, rfl⟩ := List.exists_cons_of_ne_nil h
  exact Nat.add_pos_left c.utf8Size_pos _

@[simp] theorem takeBytes_zero (cs : List Char) : takeBytes 0 cs = [] := by
  cases cs <;> rfl

@[simp] theorem dropBytes_zero (cs : List Char) : dropBytes 0 cs = cs := by
  cases cs <;> rfl

theorem takeBytes_byteCount (cs ds : List Char) : takeBytes (byteCount cs) (cs ++ ds) = cs := by
  induction cs with
  | nil => exact takeBytes_zero ds
  | cons c cs ih =>
    have hpos := c.utf8Size_pos
    rw [List.cons_append, takeBytes, byteCount, if_neg (by omega), Nat.add_sub_cancel_left, ih]

theorem dropBytes_byteCount (cs ds : List Char) : dropBytes (byteCount cs) (cs ++ ds) = ds := by
  induction cs with
  | nil => exact dropBytes_zero ds
  | cons c cs ih =>
    have hpos := c.utf8Size_pos
    rw [List.cons_append, dropBytes, byteCount, if_neg (by omega), Nat.add_sub_cancel_left, ih]

/-! ### Lines -/

theorem lastLine_of_not_mem {cs : List Char} (h : '\n' ∉ cs) : lastLine cs = cs := by
  rw [lastLine, List.takeWhile_eq_self_iff.mpr, List.reverse_reverse]
  intro c hc
  exact bne_iff_ne.mpr fun hline => h (hline ▸ List.mem_reverse.mp hc)

theorem lastLine_append {head tail : List Char} (h : '\n' ∉ tail) : lastLine (head ++ '\n' :: tail) = tail := by
  have hall : ∀ c ∈ tail.reverse, (c != '\n') = true := fun c hc =>
    bne_iff_ne.mpr fun hline => h (hline ▸ List.mem_reverse.mp hc)
  rw [lastLine, List.reverse_append, List.reverse_cons, List.append_assoc, List.takeWhile_append_of_pos hall]
  simp

/-- A text has one line, or ends with the line after its last line feed. -/
theorem exists_lastLine (cs : List Char) : '\n' ∉ cs ∨ ∃ head tail, cs = head ++ '\n' :: tail ∧ '\n' ∉ tail := by
  by_cases h : '\n' ∈ cs
  · obtain ⟨tail, head, hreverse, htail⟩ := List.eq_append_cons_of_mem (List.mem_reverse.mpr h)
    refine .inr ⟨head.reverse, tail.reverse, ?_, fun hmem => htail (List.mem_reverse.mp hmem)⟩
    simpa using congrArg List.reverse hreverse
  · exact .inl h

end Text

namespace Position

/-- The position right after a text that stands at the start of a source. -/
def reached (before : List Char) : Position :=
  ⟨1 + before.count '\n', 1 + (Text.lastLine before).length⟩

theorem after_of_not_mem (p : Position) {cs : List Char} (h : '\n' ∉ cs) : p.after cs = ⟨p.line, p.column + cs.length⟩ := by
  induction cs generalizing p with
  | nil => rfl
  | cons c cs ih =>
    obtain ⟨hc, hcs⟩ := not_or.mp (mt List.mem_cons.mpr h)
    rw [after_cons, ih _ hcs, next, if_neg (Ne.symm hc), List.length_cons, Nat.add_assoc, Nat.add_comm 1]

theorem line_after (p : Position) (cs : List Char) : (p.after cs).line = p.line + cs.count '\n' := by
  induction cs generalizing p with
  | nil => rfl
  | cons c cs ih =>
    rw [after_cons, ih, next, List.count_cons]
    by_cases h : c = '\n'
    · simp only [h, beq_self_eq_true, if_true]
      omega
    · simp only [h, beq_iff_eq, if_false, Nat.add_zero]

theorem after_line (p : Position) (head : List Char) {tail : List Char} (h : '\n' ∉ tail) :
    p.after (head ++ '\n' :: tail) = ⟨p.line + (head.count '\n' + 1), 1 + tail.length⟩ := by
  rw [after_append, after_cons, after_of_not_mem _ h, next, if_pos rfl, line_after, Nat.add_assoc]

/-- Counting in a text as a whole comes to the same as reading it character by character. -/
theorem skip_eq_after (p : Position) (cs : List Char) : p.skip cs = p.after cs := by
  rcases Text.exists_lastLine cs with h | ⟨head, tail, rfl, h⟩
  · rw [after_of_not_mem p h, skip, if_neg (by simpa using h)]
  · rw [after_line p head h, skip, if_pos (by simp), Text.lastLine_append h, List.count_append, List.count_cons_self,
      List.count_eq_zero_of_not_mem h, Nat.zero_add, Nat.add_comm tail.length]

theorem start_after (cs : List Char) : start.after cs = reached cs := by
  rcases Text.exists_lastLine cs with h | ⟨head, tail, rfl, h⟩
  · rw [after_of_not_mem _ h, reached, Text.lastLine_of_not_mem h, List.count_eq_zero_of_not_mem h]
    rfl
  · rw [after_line _ head h, reached, Text.lastLine_append h, List.count_append, List.count_cons_self,
      List.count_eq_zero_of_not_mem h, Nat.zero_add]
    rfl

end Position

namespace Locator

/-! ### Where the lines start -/

theorem lineStartsFrom_append (offset : Nat) (cs ds : List Char) :
    lineStartsFrom offset (cs ++ ds) = lineStartsFrom offset cs ++ lineStartsFrom (offset + Text.byteCount cs) ds := by
  induction cs generalizing offset with
  | nil => rfl
  | cons c cs ih =>
    rw [List.cons_append, lineStartsFrom, lineStartsFrom, ih, Text.byteCount, Nat.add_assoc]
    by_cases h : c = '\n' <;> simp only [h, if_true, if_false, List.cons_append]

theorem length_lineStartsFrom (offset : Nat) (cs : List Char) :
    (lineStartsFrom offset cs).length = cs.count '\n' := by
  induction cs generalizing offset with
  | nil => rfl
  | cons c cs ih =>
    rw [lineStartsFrom, List.count_cons]
    by_cases h : c = '\n' <;> simp [h, ih]

theorem bounds_of_mem_lineStartsFrom {offset lineStart : Nat} {cs : List Char}
    (h : lineStart ∈ lineStartsFrom offset cs) : offset < lineStart ∧ lineStart ≤ offset + Text.byteCount cs := by
  induction cs generalizing offset with
  | nil => cases h
  | cons c cs ih =>
    have hpos := c.utf8Size_pos
    rw [Text.byteCount]
    rw [lineStartsFrom] at h
    split at h
    · rcases List.mem_cons.mp h with rfl | h
      · omega
      · have := ih h
        omega
    · have := ih h
      omega

/-- The lines of a source that start up to a place are those of the text before it. -/
theorem takeWhile_lineStarts (before rest : List Char) :
    (0 :: lineStartsFrom 0 (before ++ rest)).takeWhile (· ≤ Text.byteCount before) =
      0 :: lineStartsFrom 0 before := by
  have hbefore : ∀ s ∈ 0 :: lineStartsFrom 0 before, decide (s ≤ Text.byteCount before) = true := by
    intro s hs
    rcases List.mem_cons.mp hs with rfl | hs
    · exact decide_eq_true (Nat.zero_le _)
    · have := bounds_of_mem_lineStartsFrom hs
      exact decide_eq_true (by omega)
  have hrest : (lineStartsFrom (Text.byteCount before) rest).takeWhile (· ≤ Text.byteCount before) = [] := by
    refine List.takeWhile_eq_nil_iff.mpr fun hlength hle => ?_
    have hlt := (bounds_of_mem_lineStartsFrom (List.get_mem _ ⟨0, hlength⟩)).1
    exact absurd hlt (Nat.not_lt_of_le (of_decide_eq_true hle))
  rw [lineStartsFrom_append, Nat.zero_add, ← List.cons_append, List.takeWhile_append_of_pos hbefore, hrest,
    List.append_nil]

/-! ### Answers -/

/-- A locator answers for a source: its cursor stands somewhere in it. -/
structure Serves (l : Locator) (source : List Char) : Prop where
  source_eq : l.source = source
  lineStarts_eq : l.lineStarts = 0 :: lineStartsFrom 0 source
  cursor : ∃ before, before ++ l.cursor.rest = source ∧ l.cursor.offset = Text.byteCount before ∧
    l.cursor.position = Position.start.after before

theorem serves_ofSource (source : List Char) : (ofSource source).Serves source where
  source_eq := rfl
  lineStarts_eq := rfl
  cursor := ⟨[], rfl, rfl, rfl⟩

namespace Serves
variable {l : Locator} {source before rest : List Char}

theorem recount (h : l.Serves source) (hsplit : before ++ rest = source) :
    l.recount (Text.byteCount before) = Position.start.after before := by
  rw [Locator.recount, h.lineStarts_eq, h.source_eq, ← hsplit, takeWhile_lineStarts, List.length_cons,
    length_lineStartsFrom, Nat.add_sub_cancel]
  rcases Text.exists_lastLine before with hline | ⟨head, tail, rfl, hline⟩
  · rw [List.count_eq_zero_of_not_mem hline, List.getD_cons_zero, Nat.sub_zero, Text.dropBytes_zero,
      Text.takeBytes_byteCount, Position.after_of_not_mem _ hline, Nat.add_comm before.length]
    rfl
  · -- The last line before the place starts right after the line feed.
    have hsource : head ++ '\n' :: tail ++ rest = (head ++ ['\n']) ++ (tail ++ rest) := by simp
    have hbytes : Text.byteCount (head ++ '\n' :: tail) = Text.byteCount (head ++ ['\n']) + Text.byteCount tail := by
      rw [← Text.byteCount_append, List.append_assoc]
      rfl
    have hcount : (head ++ '\n' :: tail).count '\n' = (head ++ ['\n']).count '\n' := by
      rw [List.count_append, List.count_append, List.count_cons_self, List.count_eq_zero_of_not_mem hline]
      rfl
    have hstart : (0 :: lineStartsFrom 0 ((head ++ ['\n']) ++ (tail ++ rest))).getD ((head ++ ['\n']).count '\n') 0 =
        Text.byteCount (head ++ ['\n']) := by
      rw [lineStartsFrom_append, lineStartsFrom_append, Text.byteCount_append, List.count_append, List.count_singleton_self,
        List.getD_cons_succ, List.append_assoc, List.getD_eq_getElem?_getD,
        List.getElem?_append_right (length_lineStartsFrom 0 head).le, length_lineStartsFrom, Nat.sub_self, Nat.zero_add]
      rfl
    rw [hcount, hsource, hstart, Text.dropBytes_byteCount, hbytes, Nat.add_sub_cancel_left, Text.takeBytes_byteCount,
      Position.after_line _ head hline, List.count_append, List.count_singleton_self, Nat.add_comm tail.length,
      Nat.add_comm _ 1]
    rfl

/-- A locator finds the position of every place, and answers for the source still. -/
theorem locate (h : l.Serves source) (hsplit : before ++ rest = source) :
    (l.locate (Text.byteCount before)).1 = Position.start.after before ∧
      (l.locate (Text.byteCount before)).2.Serves source := by
  rw [Locator.locate]
  split
  · exact ⟨h.recount hsplit, h⟩
  · next hahead =>
    obtain ⟨passed, hpassed, hoffset, hposition⟩ := h.cursor
    -- The cursor is not past the place, so the place is in the text that the cursor still has.
    have hprefix : passed <+: before := by
      rcases List.prefix_or_prefix_of_prefix (hpassed ▸ List.prefix_append passed l.cursor.rest)
        (hsplit ▸ List.prefix_append before rest) with hle | ⟨more, rfl⟩
      · exact hle
      · by_cases hmore : more = []
        · exact ⟨[], by rw [hmore, List.append_nil, List.append_nil]⟩
        · have hpos := Text.byteCount_pos hmore
          rw [hoffset, Text.byteCount_append] at hahead
          omega
    obtain ⟨skipped, rfl⟩ := hprefix
    have hrest : l.cursor.rest = skipped ++ rest := by
      rw [← hsplit, List.append_assoc] at hpassed
      exact List.append_cancel_left hpassed
    have hbytes : Text.byteCount (passed ++ skipped) - l.cursor.offset = Text.byteCount skipped := by
      rw [hoffset, Text.byteCount_append, Nat.add_sub_cancel_left]
    dsimp only
    rw [hbytes, hrest, Text.takeBytes_byteCount, Text.dropBytes_byteCount, Position.skip_eq_after, hposition,
      ← Position.after_append]
    exact ⟨rfl, h.source_eq, h.lineStarts_eq, passed ++ skipped, hsplit, rfl, rfl⟩

end Serves

end Locator

end TemplatedSql
