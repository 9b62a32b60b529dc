import Mathlib.Data.List.Sort
import TemplatedSql.Value.Method

/-! # Splitting and joining texts

A separator is taken where it first occurs, and then where it first occurs behind the place taken last. These places are
determined by the text alone, the parts are what lies between them, and a text is the join of its parts. The words of a
text are determined in the same way by its blanks. -/

namespace TemplatedSql

namespace Text
variable {sep cs : List Char}

/-! ### The places of a separator -/

/-- The `places` of the occurrences of `sep` in a text that are taken from the left without an overlap: each other
occurrence begins within one that is taken. -/
structure Taken (sep cs : List Char) (places : List Nat) : Prop where
  occurs : ∀ p ∈ places, sep <+: cs.drop p
  apart : places.Pairwise fun p q => p + sep.length ≤ q
  covers : ∀ q, sep <+: cs.drop q → ∃ p ∈ places, p ≤ q ∧ q < p + sep.length

namespace Taken
variable {places others : List Nat}

theorem nil (hsep : sep ≠ []) : Taken sep [] [] where
  occurs _ hp := absurd hp List.not_mem_nil
  apart := .nil
  covers _ hq := absurd (List.prefix_nil.mp (List.drop_nil ▸ hq)) hsep

/-- An occurrence at the start of a text is taken, and then those in the rest. -/
theorem found (h : Taken sep cs places) :
    Taken sep (sep ++ cs) (0 :: places.map (sep.length + ·)) where
  occurs p hp := by
    rcases List.mem_cons.mp hp with rfl | hp
    · exact List.prefix_append sep cs
    · obtain ⟨p, hmem, rfl⟩ := List.mem_map.mp hp
      rw [List.drop_length_add_append]
      exact h.occurs p hmem
  apart := by
    refine List.pairwise_cons.mpr ⟨fun q hq => ?_, List.pairwise_map.mpr (h.apart.imp fun hpq => ?_)⟩
    · obtain ⟨p, -, rfl⟩ := List.mem_map.mp hq
      omega
    · omega
  covers q hq := by
    rcases Nat.lt_or_ge q sep.length with hlt | hge
    · exact ⟨0, List.mem_cons_self, Nat.zero_le q, by omega⟩
    · obtain ⟨q, rfl⟩ := Nat.exists_eq_add_of_le hge
      rw [List.drop_length_add_append] at hq
      obtain ⟨p, hp, hle, hlt⟩ := h.covers q hq
      exact ⟨_, List.mem_cons_of_mem _ (List.mem_map_of_mem hp), by omega, by omega⟩

/-- Where no occurrence starts a text, those in the rest are taken. -/
theorem next {c : Char} (hstart : ¬sep <+: c :: cs) (h : Taken sep cs places) :
    Taken sep (c :: cs) (places.map (· + 1)) where
  occurs p hp := by
    obtain ⟨p, hmem, rfl⟩ := List.mem_map.mp hp
    exact h.occurs p hmem
  apart := List.pairwise_map.mpr (h.apart.imp fun hpq => by omega)
  covers q hq := by
    cases q with
    | zero => exact absurd hq hstart
    | succ q =>
      obtain ⟨p, hp, hle, hlt⟩ := h.covers q hq
      exact ⟨_, List.mem_map_of_mem hp, by omega, by omega⟩

/-- By induction on the place: an occurrence is either taken or begins within an earlier one that is taken, and the
earlier one is taken by both. -/
theorem mem_of_mem (h : Taken sep cs places) (hother : Taken sep cs others) {p : Nat} (hp : p ∈ places) : p ∈ others := by
  induction p using Nat.strongRecOn generalizing places others with
  | ind p ih =>
    obtain ⟨p', hp', hle, hlt⟩ := hother.covers p (h.occurs p hp)
    rcases Nat.eq_or_lt_of_le hle with rfl | hbefore
    · exact hp'
    · have hmem : p' ∈ places := ih p' hbefore hother h hp'
      have hapart : p' + sep.length ≤ p := by
        obtain ⟨i, hi, rfl⟩ := List.getElem_of_mem hmem
        obtain ⟨j, hj, rfl⟩ := List.getElem_of_mem hp
        rcases Nat.lt_trichotomy i j with hij | rfl | hji
        · exact List.pairwise_iff_getElem.mp h.apart i j hi hj hij
        · omega
        · have := List.pairwise_iff_getElem.mp h.apart j i hj hi hji
          omega
      omega

/-- The places are determined by the text. -/
theorem unique (hsep : sep ≠ []) (h : Taken sep cs places) (hother : Taken sep cs others) : places = others := by
  have hincreasing {l : List Nat} (hl : Taken sep cs l) : l.Pairwise (· < ·) :=
    hl.apart.imp fun hpq => by
      have := List.length_pos_iff.mpr hsep
      omega
  exact (hincreasing h).eq_of_mem_iff (hincreasing hother) fun p => ⟨h.mem_of_mem hother, hother.mem_of_mem h⟩

end Taken

/-! ### The parts between separators -/

/-- The characters to skip are left out, and what was read already comes before the first part of the rest. -/
theorem splitFrom_eq (skip : Nat) (part : List Char) :
    splitFrom sep skip part cs = (split sep (cs.drop skip)).modifyHead (part.reverse ++ ·) := by
  rw [split]
  induction cs generalizing skip part with
  | nil => simp [splitFrom]
  | cons c cs ih =>
    cases skip with
    | succ skip =>
      rw [splitFrom, ih]
      rfl
    | zero =>
      rw [List.drop_zero, splitFrom, splitFrom]
      split
      · simp
      · rw [ih, ih 0 [c], List.modifyHead_modifyHead]
        simp [Function.comp_def]

@[simp]
theorem split_nil : split sep [] = [[]] := rfl

theorem split_append (hsep : sep ≠ []) : split sep (sep ++ cs) = [] :: split sep cs := by
  cases sep with
  | nil => exact absurd rfl hsep
  | cons c sep =>
    have hstart : (c :: sep).isPrefixOf (c :: (sep ++ cs)) :=
      List.isPrefixOf_iff_prefix.mpr (List.prefix_append (c :: sep) cs)
    rw [split, List.cons_append, splitFrom, if_pos hstart, splitFrom_eq]
    refine congrArg ([] :: ·) ((congrFun List.modifyHead_id _).trans ?_)
    simp

theorem split_cons {c : Char} (hstart : ¬sep <+: c :: cs) : split sep (c :: cs) = (split sep cs).modifyHead (c :: ·) := by
  rw [split, splitFrom, if_neg (mt List.isPrefixOf_iff_prefix.mp hstart), splitFrom_eq]
  rfl

/-- The cases of a text are those of the parts: it is empty, or begins with the separator, or with a character of the
first part. -/
@[elab_as_elim]
theorem split_induction {motive : List Char → Prop} (hsep : sep ≠ []) (nil : motive [])
    (found : ∀ cs, motive cs → motive (sep ++ cs))
    (next : ∀ c cs, ¬sep <+: c :: cs → motive cs → motive (c :: cs)) (cs : List Char) : motive cs := by
  induction hlength : cs.length using Nat.strongRecOn generalizing cs with
  | ind n ih =>
    cases cs with
    | nil => exact nil
    | cons c cs =>
      by_cases hstart : sep <+: c :: cs
      · obtain ⟨rest, hrest⟩ := hstart
        have hshorter : rest.length < n := by
          have := List.length_pos_iff.mpr hsep
          rw [← hlength, ← hrest, List.length_append]
          omega
        exact hrest ▸ found rest (ih _ hshorter rest rfl)
      · exact next c cs hstart (ih _ (by simp [← hlength]) cs rfl)

theorem exists_split_eq_cons (hsep : sep ≠ []) (cs : List Char) : ∃ first rest, split sep cs = first :: rest := by
  induction cs using split_induction hsep with
  | nil => exact ⟨_, _, rfl⟩
  | found cs ih => exact ⟨_, _, split_append hsep⟩
  | next c cs hstart ih =>
    obtain ⟨first, rest, h⟩ := ih
    exact ⟨_, _, by rw [split_cons hstart, h, List.modifyHead_cons]⟩

/-- A text is the join of its parts. -/
theorem join_split (hsep : sep ≠ []) (cs : List Char) : join sep (split sep cs) = cs := by
  simp only [join]
  induction cs using split_induction hsep with
  | nil => simp
  | found cs ih =>
    obtain ⟨first, rest, h⟩ := exists_split_eq_cons hsep cs
    rw [split_append hsep, List.intercalate_cons_of_ne_nil (by simp [h]), ih, List.nil_append]
  | next c cs hstart ih =>
    obtain ⟨first, rest, h⟩ := exists_split_eq_cons hsep cs
    rw [h] at ih
    rw [split_cons hstart, h, List.modifyHead_cons, ← ih]
    cases rest <;> simp

theorem prefix_of_split_eq_cons (hsep : sep ≠ []) {first : List Char} {rest : List (List Char)}
    (h : split sep cs = first :: rest) : first <+: cs := by
  rw [← join_split hsep cs, h, join]
  cases rest <;> simp

/-- The separator does not occur within a part. -/
theorem not_infix_of_mem_split (hsep : sep ≠ []) {part : List Char} (h : part ∈ split sep cs) : ¬sep <:+: part := by
  have hnil : ¬sep <:+: [] := mt List.infix_nil.mp hsep
  induction cs using split_induction hsep generalizing part with
  | nil => exact List.mem_singleton.mp h ▸ hnil
  | found cs ih =>
    rw [split_append hsep] at h
    rcases List.mem_cons.mp h with rfl | h
    · exact hnil
    · exact ih h
  | next c cs hstart ih =>
    obtain ⟨first, rest, hsplit⟩ := exists_split_eq_cons hsep cs
    rw [split_cons hstart, hsplit, List.modifyHead_cons] at h
    rcases List.mem_cons.mp h with rfl | h
    · -- Within the first part it would begin the text or occur in the first part of what follows.
      intro hinfix
      rcases List.infix_cons_iff.mp hinfix with hbegins | hinfix
      · exact hstart (hbegins.trans ((List.prefix_cons_inj c).mpr (prefix_of_split_eq_cons hsep hsplit)))
      · exact ih (hsplit ▸ List.mem_cons_self) hinfix
    · exact ih (hsplit ▸ List.mem_cons_of_mem _ h)

/-- There is one part more than there are separators. -/
theorem exists_taken (hsep : sep ≠ []) (cs : List Char) :
    ∃ places, Taken sep cs places ∧ (split sep cs).length = places.length + 1 := by
  induction cs using split_induction hsep with
  | nil => exact ⟨[], .nil hsep, rfl⟩
  | found cs ih =>
    obtain ⟨places, h, hlength⟩ := ih
    exact ⟨_, h.found, by simp [split_append hsep, hlength]⟩
  | next c cs hstart ih =>
    obtain ⟨places, h, hlength⟩ := ih
    exact ⟨_, h.next hstart, by simp [split_cons hstart, hlength]⟩

/-! ### Words -/

/-- The maximal runs without a blank in a text, in their order. -/
inductive Runs : List Char → List (List Char) → Prop
  | blank {gap : List Char} (hgap : ∀ c ∈ gap, isBlank c = true) : Runs gap []
  | run {gap word rest : List Char} {runs : List (List Char)} (hgap : ∀ c ∈ gap, isBlank c = true) (hword : word ≠ [])
      (hsolid : ∀ c ∈ word, isBlank c = false) (hend : ∀ c ∈ rest.head?, isBlank c = true) (h : Runs rest runs) :
      Runs (gap ++ word ++ rest) (word :: runs)

theorem Runs.cons {c : Char} {runs : List (List Char)} (hc : isBlank c = true) (h : Runs cs runs) : Runs (c :: cs) runs := by
  cases h with
  | blank hgap => exact .blank (List.forall_mem_cons.mpr ⟨hc, hgap⟩)
  | run hgap hword hsolid hend h => exact .run (List.forall_mem_cons.mpr ⟨hc, hgap⟩) hword hsolid hend h

theorem Runs.word {word rest : List Char} {runs : List (List Char)} (hword : word ≠ [])
    (hsolid : ∀ c ∈ word, isBlank c = false) (hend : ∀ c ∈ rest.head?, isBlank c = true) (h : Runs rest runs) :
    Runs (word ++ rest) (word :: runs) :=
  @Runs.run [] word rest runs (List.forall_mem_nil _) hword hsolid hend h

/-- The characters of the word read so far stand before the rest. -/
theorem runs_wordsFrom {word : List Char} (hsolid : ∀ c ∈ word, isBlank c = false) :
    Runs (word.reverse ++ cs) (wordsFrom word cs) := by
  have hreverse {word : List Char} (h : ∀ c ∈ word, isBlank c = false) : ∀ c ∈ word.reverse, isBlank c = false :=
    fun c hc => h c (List.mem_reverse.mp hc)
  induction cs generalizing word with
  | nil =>
    rw [wordsFrom]
    split
    · rename_i hword
      rw [List.isEmpty_iff.mp hword]
      exact .blank (List.forall_mem_nil _)
    · rename_i hword
      exact .word (by simpa using hword) (hreverse hsolid) (by simp) (.blank (List.forall_mem_nil _))
  | cons c cs ih =>
    rw [wordsFrom]
    split
    · rename_i hc
      have hrest : Runs (c :: cs) (wordsFrom [] cs) := (ih (List.forall_mem_nil _)).cons hc
      split
      · rename_i hword
        rwa [List.isEmpty_iff.mp hword]
      · rename_i hword
        exact .word (by simpa using hword) (hreverse hsolid) (by simpa using hc) hrest
    · rename_i hc
      have := ih (List.forall_mem_cons.mpr ⟨Bool.eq_false_iff.mpr hc, hsolid⟩)
      rwa [List.reverse_cons, List.append_assoc] at this

theorem words_append_of_blank {gap : List Char} (hgap : ∀ c ∈ gap, isBlank c = true) : words (gap ++ cs) = words cs := by
  induction gap with
  | nil => rfl
  | cons c gap ih =>
    obtain ⟨hc, hgap⟩ := List.forall_mem_cons.mp hgap
    rw [words, List.cons_append, wordsFrom, if_pos hc]
    exact ih hgap

theorem wordsFrom_append_of_solid {part word : List Char} (hsolid : ∀ c ∈ word, isBlank c = false) :
    wordsFrom part (word ++ cs) = wordsFrom (word.reverse ++ part) cs := by
  induction word generalizing part with
  | nil => rfl
  | cons c word ih =>
    obtain ⟨hc, hsolid⟩ := List.forall_mem_cons.mp hsolid
    rw [List.cons_append, wordsFrom, if_neg (by simp [hc]), ih hsolid]
    simp

/-- The runs are determined by the text: its words. -/
theorem runs_iff {runs : List (List Char)} : Runs cs runs ↔ runs = words cs := by
  constructor
  · intro h
    induction h with
    | @blank gap hgap => rw [← List.append_nil gap, words_append_of_blank hgap]; rfl
    | @run gap word rest runs hgap hword hsolid hend h ih =>
      rw [List.append_assoc, words_append_of_blank hgap, words, wordsFrom_append_of_solid hsolid, List.append_nil]
      cases rest with
      | nil => simp [wordsFrom, hword, ih, words]
      | cons c rest =>
        have hc : isBlank c = true := hend c rfl
        rw [wordsFrom, if_pos hc, if_neg (by simpa using hword), List.reverse_reverse, ih, words, wordsFrom, if_pos hc]
        rfl
  · rintro rfl
    exact runs_wordsFrom (List.forall_mem_nil _)

end Text

/-! ### The methods of strings -/

theorem Value.ofTexts_inj {a b : List (List Char)} : Value.ofTexts a = .ofTexts b ↔ a = b := by
  constructor
  · intro h
    refine List.map_injective_iff.mpr (fun cs ds hchars => ?_) (Value.list.inj h)
    exact String.ofList_inj.mp (Value.string.inj hchars)
  · rintro rfl
    rfl

namespace StringMethod
variable {arguments : List Argument} {sep s : String}

theorem apply_split (hsep : sep ≠ "") (h : Argument.find? arguments 0 "sep" = some (.string sep)) :
    split.apply s arguments = .ok (.ofTexts (Text.split sep.toList s.toList)) := by
  cases hchars : sep.toList with
  | nil => exact absurd (String.toList_eq_nil_iff.mp hchars) hsep
  | cons c cs =>
    simp only [apply, Argument.string?, Argument.string, h, Functor.map, Except.map, Option.map, hchars]
    rfl

theorem apply_split_blank
    (h : Argument.find? arguments 0 "sep" = none ∨ Argument.find? arguments 0 "sep" = some .undefined ∨
      Argument.find? arguments 0 "sep" = some (.string "")) :
    split.apply s arguments = .ok (.ofTexts (Text.words s.toList)) := by
  rcases h with h | h | h <;> simp only [apply, Argument.string?, Argument.string, h] <;> rfl

theorem apply_join {parts : List (List Char)} (h : Argument.find? arguments 0 "items" = some (.ofTexts parts)) :
    join.apply sep arguments = .ok (.string (.ofList (Text.join sep.toList parts))) := by
  simp [apply, h, Value.ofTexts, Function.comp_def, Value.text, Value.textIn]

/-- Splitting and joining are inverse. A string is split at the separators that are taken from the left, which are one
fewer than the parts. No separator occurs within a part, and the parts joined by it are the string. Without a separator the
parts are the maximal runs without a blank. -/
theorem split_join_inverse (s : String) :
    (∀ (sep : String) (arguments : List Argument), sep ≠ "" → Argument.find? arguments 0 "sep" = some (.string sep) →
      ∃ parts : List (List Char), split.apply s arguments = .ok (.ofTexts parts) ∧
        (∀ part ∈ parts, ¬sep.toList <:+: part) ∧
        (∃ places, (∀ others, Text.Taken sep.toList s.toList others ↔ others = places) ∧
          parts.length = places.length + 1) ∧
        ∀ arguments, Argument.find? arguments 0 "items" = some (.ofTexts parts) →
          join.apply sep arguments = .ok (.string s)) ∧
    ∀ arguments : List Argument,
      (Argument.find? arguments 0 "sep" = none ∨ Argument.find? arguments 0 "sep" = some .undefined ∨
        Argument.find? arguments 0 "sep" = some (.string "")) →
      ∃ parts : List (List Char), split.apply s arguments = .ok (.ofTexts parts) ∧
        ∀ runs, Text.Runs s.toList runs ↔ runs = parts := by
  refine ⟨fun sep arguments hne h => ?_, fun arguments h => ⟨_, apply_split_blank h, fun runs => Text.runs_iff⟩⟩
  have hsep : sep.toList ≠ [] := mt String.toList_eq_nil_iff.mp hne
  obtain ⟨places, htaken, hlength⟩ := Text.exists_taken hsep s.toList
  refine ⟨_, apply_split hne h, fun part hpart => Text.not_infix_of_mem_split hsep hpart,
    ⟨places, fun others => ⟨fun hothers => hothers.unique hsep htaken, ?_⟩, hlength⟩, fun arguments hitems => ?_⟩
  · rintro rfl
    exact htaken
  · rw [apply_join hitems, Text.join_split hsep, String.ofList_toList]

/-- Of the four places of a separator that overlaps itself two are taken, with an empty part before each of them. -/
theorem split_join_inverse_of_overlap :
    split.apply "éaaaaa" [⟨none, .string "aa"⟩] = .ok (.ofTexts [['é'], [], ['a']]) ∧
      (∀ places, Text.Taken "aa".toList "éaaaaa".toList places → places.length = 2) ∧
      join.apply "aa" [⟨some "items", .ofTexts [['é'], [], ['a']]⟩] = .ok (.string "éaaaaa") ∧
      split.apply " é\tz " [⟨some "sep", .undefined⟩] = .ok (.ofTexts [['é'], ['z']]) ∧
      Text.Runs " é\tz ".toList [['é'], ['z']] := by
  have hsplit : split.apply "éaaaaa" [⟨none, .string "aa"⟩] = .ok (.ofTexts [['é'], [], ['a']]) := rfl
  have hwords : split.apply " é\tz " [⟨some "sep", .undefined⟩] = .ok (.ofTexts [['é'], ['z']]) := rfl
  obtain ⟨parts, h, -, ⟨places, hplaces, hlength⟩, hjoin⟩ :=
    (split_join_inverse "éaaaaa").1 "aa" [⟨none, .string "aa"⟩] (by decide) rfl
  obtain rfl := Value.ofTexts_inj.mp (Except.ok.inj (hsplit.symm.trans h))
  obtain ⟨words, h', hruns⟩ := (split_join_inverse " é\tz ").2 [⟨some "sep", .undefined⟩] (.inr (.inl rfl))
  obtain rfl := Value.ofTexts_inj.mp (Except.ok.inj (hwords.symm.trans h'))
  refine ⟨hsplit, fun others hothers => ?_, hjoin _ rfl, hwords, (hruns _).mpr rfl⟩
  rw [(hplaces others).mp hothers]
  exact (Nat.succ.inj hlength).symm

end StringMethod

end TemplatedSql
