import TemplatedSql.Proofs.Alike.Call
import TemplatedSql.Proofs.Relocation.Call
import TemplatedSql.Proofs.Relocation.Source

/-! # Values up to the places in macros

A value is told from others by what it is, and a macro by where it was defined, never by the places in its body. So
values that are the same without these places have the same text, and operations on them give values that are the
same again. -/

namespace TemplatedSql

/-- The value without the places in its macros. -/
abbrev Value.unplaced : Value → Value :=
  Value.relocate Position.toStart

/-- The entries without the places in their macros. -/
abbrev Value.entriesUnplaced : List (String × Value) → List (String × Value) :=
  Value.relocateEntries Position.toStart

abbrev Function.unplaced : Function → Function :=
  Function.relocate Position.toStart

abbrev Argument.unplaced : Argument → Argument :=
  Argument.relocate Position.toStart

abbrev MacroDef.unplaced : MacroDef → MacroDef :=
  MacroDef.relocate Position.toStart

/-- Without places there is nothing left to take away. -/
theorem MacroDef.unplaced_unplaced (d : MacroDef) : d.unplaced.unplaced = d.unplaced := by
  cases d with
  | mk p name parameters body =>
    simp only [unplaced, relocate, Body.relocate_relocate]
    rfl

theorem MacroDef.unplaced_body_eq {d e : MacroDef} (h : d.unplaced = e.unplaced) :
    d.body.unplaced = e.body.unplaced := by
  have heq := congrArg body h
  rw [body_relocate, body_relocate] at heq
  exact heq

/-! ### Results -/

/-- Results that are the same up to a function are errors that are the same, or values that are up to it. -/
theorem ExceptRel.of_map_eq {ε α β : Type} {f : α → β} {a b : Except ε α} (h : a.map f = b.map f) :
    ExceptRel (fun x y => f x = f y) a b := by
  cases a with
  | ok x =>
    cases b with
    | ok y => exact .ok (Except.ok.inj h)
    | error e => cases h
  | error e =>
    cases b with
    | ok y => cases h
    | error e' =>
      cases h
      exact .error e

theorem forall₂_iff_map_eq {α β : Type} {f : α → β} {as bs : List α} :
    List.Forall₂ (fun x y => f x = f y) as bs ↔ as.map f = bs.map f := by
  rw [← List.forall₂_eq_eq_eq, List.forall₂_map_left_iff, List.forall₂_map_right_iff]

namespace Value
variable {v v' w w' : Value}

theorem truthy_eq_of_unplaced (h : v.unplaced = w.unplaced) : v.truthy = w.truthy := by
  simpa only [unplaced, truthy_relocate] using congrArg truthy h

theorem text_eq_of_unplaced (h : v.unplaced = w.unplaced) : v.text = w.text := by
  simpa only [unplaced, text_relocate] using congrArg text h

theorem binary_unplaced (op : BinaryOp) (hv : v.unplaced = v'.unplaced) (hw : w.unplaced = w'.unplaced) :
    ExceptRel (fun x y => x.unplaced = y.unplaced) (binary op v w) (binary op v' w') := by
  have heq := congrArg₂ (binary op) hv hw
  rw [binary_relocate, binary_relocate] at heq
  exact .of_map_eq heq

theorem index_unplaced (hv : v.unplaced = v'.unplaced) (hw : w.unplaced = w'.unplaced) :
    ExceptRel (fun x y => x.unplaced = y.unplaced) (v.index w) (v'.index w') := by
  have heq := congrArg₂ index hv hw
  rw [index_relocate, index_relocate] at heq
  exact .of_map_eq heq

theorem negate_unplaced (h : v.unplaced = w.unplaced) :
    ExceptRel (fun x y => x.unplaced = y.unplaced) v.negate w.negate := by
  have heq := congrArg negate h
  rw [negate_relocate, negate_relocate] at heq
  exact .of_map_eq heq

theorem member_unplaced (serial : Nat) (name : String) (h : v.unplaced = w.unplaced) :
    (v.member serial name).unplaced = (w.member serial name).unplaced := by
  simpa only [unplaced, member_relocate] using congrArg (member serial name) h

end Value

/-! ### Values that are alike by equality -/

section
variable {S : Nat → Nat → Prop}

mutual

/-- Where scopes and marks correspond to themselves only, alike values are equal. -/
theorem Value.eq_of_alike (hS : ∀ i j, S i j → i = j) : ∀ (v : Value) {w}, v.Alike S Eq w → v = w
  | .undefined, _, .undefined => rfl
  | .boolean _, _, .boolean _ => rfl
  | .number _, _, .number _ => rfl
  | .string _, _, .string _ => rfl
  | .list as, _, .list h => by rw [Value.allEq_of_alike hS as h]
  | .mapping es, _, .mapping h => by rw [Value.entriesEq_of_alike hS es h]
  | .function f, _, .function h => by rw [f.eq_of_alike hS h]

theorem Value.allEq_of_alike (hS : ∀ i j, S i j → i = j) :
    ∀ (as : List Value) {bs}, List.Forall₂ (Value.Alike S Eq) as bs → as = bs
  | [], _, .nil => rfl
  | a :: as, _, .cons h hs => by rw [a.eq_of_alike hS h, Value.allEq_of_alike hS as hs]

theorem Value.entriesEq_of_alike (hS : ∀ i j, S i j → i = j) : ∀ (es : List (String × Value)) {fs},
    List.Forall₂ (Value.EntryAlike S Eq) es fs → es = fs
  | [], _, .nil => rfl
  | (_, a) :: es, _, .cons (.mk _ h) hs => by rw [a.eq_of_alike hS h, Value.entriesEq_of_alike hS es hs]

theorem Function.eq_of_alike (hS : ∀ i j, S i j → i = j) : ∀ (f : Function) {g}, f.Alike S Eq g → f = g
  | .builtin _, _, .builtin _ => rfl
  | .stringMethod .., _, .stringMethod h _ _ => by rw [h]
  | .mappingMethod _ es _, _, .mappingMethod h hes _ => by rw [h, Value.entriesEq_of_alike hS es hes]
  | .host .., _, .host .. => rfl
  | .defined .., _, .defined _ _ h => by rw [hS _ _ h]

end

end

end TemplatedSql
