import TemplatedSql.Proofs.Number.Equality
import TemplatedSql.Proofs.Provenance.Names

/-! # Equal values

Equality is symmetric and transitive, and a value equals itself unless a number in it is none. Equal values are of one
kind, are both taken for true or for false, and have the same text, so what is made of them with equality, membership
and rendering is the same. Only of two values that hold one function of the host by two names do the texts differ, in
the name; no two such values come up in a session. The recursion is that of the values. -/

namespace TemplatedSql

theorem Function.same_iff {f g : Function} : f.same g = true ↔ f.identity = g.identity :=
  beq_iff_eq

/-- The same function has one text, if a function of the host is not held by two names. -/
theorem Function.text_congr {f g : Function} (h : f.same g = true)
    (hnames : ∀ key a b, f = .host key a → g = .host key b → a = b) : f.text = g.text := by
  have hidentity := same_iff.mp h
  have hname : f.name = g.name := by
    cases f <;> cases g <;> simp only [identity, reduceCtorEq, Identity.builtin.injEq, Identity.method.injEq,
      Identity.host.injEq, Identity.defined.injEq] at hidentity
    case builtin => rw [hidentity]
    case host => exact hnames _ _ _ rfl (congrArg (host · _) hidentity.symm)
    case defined => exact hidentity.1
    all_goals exact hidentity.2
  have hdefined : f.isDefined = g.isDefined := by
    cases f <;> cases g <;> first | rfl | cases hidentity
  rw [text, text, hdefined, hname]

namespace Value

/-- A number in the value is none. What a function holds does not count. -/
inductive HasNaN : Value → Prop
  | number {n} (h : Number.isNaN n = true) : HasNaN (.number n)
  | item {items v} (hmem : v ∈ items) (h : HasNaN v) : HasNaN (.list items)
  | entry {entries key v} (hmem : (key, v) ∈ entries) (h : HasNaN v) : HasNaN (.mapping entries)

/-! ### An equivalence -/

mutual

theorem same_symm : ∀ {v w : Value}, v.same w = true → w.same v = true
  | .undefined, .undefined, _ => rfl
  | .boolean a, .boolean b, h | .string a, .string b, h => by
    rw [same, beq_iff_eq] at h ⊢
    exact h.symm
  | .number a, .number b, h => Number.beq_symm h
  | .list as, .list bs, h => sameItems_symm h
  | .mapping as, .mapping bs, h => sameEntries_symm h
  | .function f, .function g, h => Function.same_iff.mpr (Function.same_iff.mp h).symm

theorem sameItems_symm : ∀ {vs ws : List Value}, sameItems vs ws = true → sameItems ws vs = true
  | [], [], _ => rfl
  | v :: vs, w :: ws, h => by
    rw [sameItems, Bool.and_eq_true] at h ⊢
    exact ⟨same_symm h.1, sameItems_symm h.2⟩

theorem sameEntries_symm : ∀ {es fs : List (String × Value)}, sameEntries es fs = true → sameEntries fs es = true
  | [], [], _ => rfl
  | (k, v) :: es, (l, w) :: fs, h => by
    rw [sameEntries, Bool.and_eq_true, Bool.and_eq_true, beq_iff_eq] at h ⊢
    exact ⟨⟨h.1.1.symm, same_symm h.1.2⟩, sameEntries_symm h.2⟩

end

mutual

theorem same_trans : ∀ {u v w : Value}, u.same v = true → v.same w = true → u.same w = true
  | .undefined, .undefined, .undefined, _, _ => rfl
  | .boolean a, .boolean b, .boolean c, h, h' | .string a, .string b, .string c, h, h' => by
    rw [same, beq_iff_eq] at h h' ⊢
    exact h.trans h'
  | .number a, .number b, .number c, h, h' => Number.beq_trans h h'
  | .list as, .list bs, .list cs, h, h' => sameItems_trans h h'
  | .mapping as, .mapping bs, .mapping cs, h, h' => sameEntries_trans h h'
  | .function f, .function g, .function k, h, h' =>
    Function.same_iff.mpr ((Function.same_iff.mp h).trans (Function.same_iff.mp h'))

theorem sameItems_trans : ∀ {us vs ws : List Value}, sameItems us vs = true → sameItems vs ws = true →
    sameItems us ws = true
  | [], [], [], _, _ => rfl
  | u :: us, v :: vs, w :: ws, h, h' => by
    rw [sameItems, Bool.and_eq_true] at h h' ⊢
    exact ⟨same_trans h.1 h'.1, sameItems_trans h.2 h'.2⟩

theorem sameEntries_trans : ∀ {ds es fs : List (String × Value)}, sameEntries ds es = true →
    sameEntries es fs = true → sameEntries ds fs = true
  | [], [], [], _, _ => rfl
  | (j, u) :: ds, (k, v) :: es, (l, w) :: fs, h, h' => by
    rw [sameEntries, Bool.and_eq_true, Bool.and_eq_true, beq_iff_eq] at h h' ⊢
    exact ⟨⟨h.1.1.trans h'.1.1, same_trans h.1.2 h'.1.2⟩, sameEntries_trans h.2 h'.2⟩

end

mutual

/-- A value equals itself where its numbers are numbers. -/
theorem same_self : ∀ v : Value, v.same v = true ↔ ¬v.HasNaN
  | .undefined => iff_of_true rfl fun h => nomatch h
  | .boolean b => iff_of_true (beq_self_eq_true b) fun h => nomatch h
  | .string s => iff_of_true (beq_self_eq_true s) fun h => nomatch h
  | .number n => by
    rw [same, Number.beq_self]
    constructor
    · rintro h ⟨hnan⟩
      rw [h] at hnan
      cases hnan
    · intro h
      exact Bool.eq_false_of_not_eq_true fun hnan => h (.number hnan)
  | .list items => by
    rw [same, sameItems_self items]
    constructor
    · rintro h (_ | ⟨hmem, hitem⟩)
      exact h _ hmem hitem
    · exact fun h v hmem hitem => h (.item hmem hitem)
  | .mapping entries => by
    rw [same, sameEntries_self entries]
    constructor
    · rintro h (_ | _ | ⟨hmem, hentry⟩)
      exact h _ _ hmem hentry
    · exact fun h key v hmem hentry => h (.entry hmem hentry)
  | .function f => iff_of_true (Function.same_iff.mpr rfl) fun h => nomatch h

theorem sameItems_self : ∀ vs : List Value, sameItems vs vs = true ↔ ∀ v ∈ vs, ¬v.HasNaN
  | [] => iff_of_true rfl (List.forall_mem_nil _)
  | v :: vs => by rw [sameItems, Bool.and_eq_true, same_self v, sameItems_self vs, List.forall_mem_cons]

theorem sameEntries_self : ∀ es : List (String × Value),
    sameEntries es es = true ↔ ∀ key v, (key, v) ∈ es → ¬v.HasNaN
  | [] => iff_of_true rfl fun _ _ h => nomatch h
  | (k, v) :: es => by
    rw [sameEntries, Bool.and_eq_true, Bool.and_eq_true, beq_self_eq_true, same_self v, sameEntries_self es]
    simp only [true_and, List.mem_cons, Prod.mk.injEq]
    constructor
    · rintro ⟨hv, hes⟩ key w (⟨rfl, rfl⟩ | hmem)
      · exact hv
      · exact hes key w hmem
    · exact fun h => ⟨h k v (.inl ⟨rfl, rfl⟩), fun key w hmem => h key w (.inr hmem)⟩

end

namespace OneName
variable {v w : Value} {vs ws : List Value} {k l : String} {es fs : List (String × Value)}

theorem first_item (h : (list (v :: vs)).OneName (list (w :: ws))) : v.OneName w :=
  fun key a b hv hw => h key a b (.item List.mem_cons_self hv) (.item List.mem_cons_self hw)

theorem other_items (h : (list (v :: vs)).OneName (list (w :: ws))) : (list vs).OneName (list ws) := by
  rintro key a b ⟨⟩ ⟨⟩
  rename_i hmem hv _ hmem' hw
  exact h key a b (.item (List.mem_cons_of_mem _ hmem) hv) (.item (List.mem_cons_of_mem _ hmem') hw)

theorem first_entry (h : (mapping ((k, v) :: es)).OneName (mapping ((l, w) :: fs))) : v.OneName w :=
  fun key a b hv hw => h key a b (.entry List.mem_cons_self hv) (.entry List.mem_cons_self hw)

theorem other_entries (h : (mapping ((k, v) :: es)).OneName (mapping ((l, w) :: fs))) :
    (mapping es).OneName (mapping fs) := by
  rintro key a b ⟨⟩ ⟨⟩
  rename_i hmem hv _ _ hmem' hw
  exact h key a b (.entry (List.mem_cons_of_mem _ hmem) hv) (.entry (List.mem_cons_of_mem _ hmem') hw)

end OneName

mutual

/-- Equal values have one text. A function of the host might be held by two names. -/
theorem textIn_congr : ∀ {v w : Value}, v.same w = true → v.OneName w → ∀ inner, v.textIn inner = w.textIn inner
  | .undefined, .undefined, _, _, _ | .list [], .list [], _, _, _ | .mapping [], .mapping [], _, _, _ => rfl
  | .boolean a, .boolean b, h, _, _ | .string a, .string b, h, _, _ => by
    rw [same, beq_iff_eq] at h
    rw [h]
  | .number a, .number b, h, _, _ => Number.text_congr h
  | .list (v :: vs), .list (w :: ws), h, hnames, _ => by
    rw [same, sameItems, Bool.and_eq_true] at h
    rw [textIn, textIn, textIn_congr h.1 hnames.first_item, itemsText_congr h.2 hnames.other_items]
  | .mapping ((k, v) :: es), .mapping ((l, w) :: fs), h, hnames, _ => by
    rw [same, sameEntries, Bool.and_eq_true, Bool.and_eq_true, beq_iff_eq] at h
    rw [textIn, textIn, h.1.1, textIn_congr h.1.2 hnames.first_entry, entriesText_congr h.2 hnames.other_entries]
  | .function f, .function g, h, hnames, _ => by
    refine Function.text_congr h fun key a b hf hg => hnames key a b ?_ ?_
    · exact hf ▸ .function
    · exact hg ▸ .function

theorem itemsText_congr : ∀ {vs ws : List Value}, sameItems vs ws = true → (list vs).OneName (list ws) → ∀ text,
    itemsText text vs = itemsText text ws
  | [], [], _, _, _ => rfl
  | v :: vs, w :: ws, h, hnames, _ => by
    rw [sameItems, Bool.and_eq_true] at h
    rw [itemsText, itemsText, textIn_congr h.1 hnames.first_item, itemsText_congr h.2 hnames.other_items]

theorem entriesText_congr : ∀ {es fs : List (String × Value)}, sameEntries es fs = true →
    (mapping es).OneName (mapping fs) → ∀ text, entriesText text es = entriesText text fs
  | [], [], _, _, _ => rfl
  | (k, v) :: es, (l, w) :: fs, h, hnames, _ => by
    rw [sameEntries, Bool.and_eq_true, Bool.and_eq_true, beq_iff_eq] at h
    rw [entriesText, entriesText, h.1.1, textIn_congr h.1.2 hnames.first_entry, entriesText_congr h.2 hnames.other_entries]

end

section
variable {u v : Value} (h : u.same v = true) (before after : List Value)
include h

end

/-- A function that a host has go by two names equals itself, with two texts. -/
example : (function (.host 0 "f")).same (function (.host 0 "g")) = true ∧
    (function (.host 0 "f")).text ≠ (function (.host 0 "g")).text := by
  decide

end Value

end TemplatedSql
