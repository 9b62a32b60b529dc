import TemplatedSql.Proofs.Relocation.Tree
import TemplatedSql.Value.Operator

/-! # Values whose macros are moved

No operation on values looks into the body of a macro, so each commutes with moving the macros in its operands. -/

namespace TemplatedSql

mutual

/-- The value with the places in its macros moved. -/
@[simp] def Value.relocate (h : Position → Position) : Value → Value
  | .undefined => .undefined
  | .boolean b => .boolean b
  | .number n => .number n
  | .string s => .string s
  | .list items => .list (Value.relocateAll h items)
  | .mapping entries => .mapping (Value.relocateEntries h entries)
  | .function f => .function (f.relocate h)

@[simp] def Value.relocateAll (h : Position → Position) : List Value → List Value
  | [] => []
  | v :: vs => v.relocate h :: Value.relocateAll h vs

@[simp] def Value.relocateEntries (h : Position → Position) : List (String × Value) → List (String × Value)
  | [] => []
  | (key, v) :: es => (key, v.relocate h) :: Value.relocateEntries h es

@[simp] def Function.relocate (h : Position → Position) : Function → Function
  | .builtin b => .builtin b
  | .stringMethod serial receiver m => .stringMethod serial receiver m
  | .mappingMethod serial receiver m => .mappingMethod serial (Value.relocateEntries h receiver) m
  | .host key name => .host key name
  | .defined d address scope => .defined (d.relocate h) address scope

end

section
variable (h : Position → Position)

@[simp] theorem MacroDef.name_relocate (d : MacroDef) : (d.relocate h).name = d.name := by
  cases d
  rw [MacroDef.relocate]

@[simp] theorem MacroDef.parameters_relocate (d : MacroDef) : (d.relocate h).parameters = d.parameters := by
  cases d
  rw [MacroDef.relocate]

@[simp] theorem MacroDef.body_relocate (d : MacroDef) : (d.relocate h).body = d.body.relocate h h := by
  cases d
  rw [MacroDef.relocate]

namespace Value

theorem relocateAll_eq_map (vs : List Value) : relocateAll h vs = vs.map (relocate h) := by
  induction vs with
  | nil => rfl
  | cons v vs ih => rw [relocateAll, ih, List.map_cons]

theorem relocateEntries_eq_map (es : List (String × Value)) :
    relocateEntries h es = es.map fun e => (e.1, e.2.relocate h) := by
  induction es with
  | nil => rfl
  | cons e es ih => rw [relocateEntries, ih, List.map_cons]

@[simp] theorem length_relocateAll (vs : List Value) : (relocateAll h vs).length = vs.length := by
  rw [relocateAll_eq_map, List.length_map]

@[simp] theorem length_relocateEntries (es : List (String × Value)) :
    (relocateEntries h es).length = es.length := by
  rw [relocateEntries_eq_map, List.length_map]

theorem lookup_relocateEntries (es : List (String × Value)) (key : String) :
    (relocateEntries h es).lookup key = (es.lookup key).map (relocate h) := by
  induction es with
  | nil => rfl
  | cons e es ih =>
    obtain ⟨k, v⟩ := e
    rw [relocateEntries, List.lookup_cons, List.lookup_cons, ih]
    cases key == k <;> rfl

/-! ### What a value is -/

@[simp] theorem kind_relocate (v : Value) : (v.relocate h).kind = v.kind := by
  cases v <;> rfl

@[simp] theorem truthy_relocate (v : Value) : (v.relocate h).truthy = v.truthy := by
  cases v with
  | list items => cases items <;> rfl
  | mapping entries => cases entries <;> rfl
  | _ => rfl

end Value

namespace Function

@[simp] theorem name_relocate (f : Function) : (f.relocate h).name = f.name := by
  cases f with
  | defined d => exact d.name_relocate h
  | _ => rfl

@[simp] theorem identity_relocate (f : Function) : (f.relocate h).identity = f.identity := by
  cases f with
  | defined d address scope => exact congrArg (Identity.defined · address scope) (d.name_relocate h)
  | _ => rfl

theorem text_relocate (f : Function) : (f.relocate h).text = f.text := by
  have hdefined : (f.relocate h).isDefined = f.isDefined := by cases f <;> rfl
  rw [text, text, hdefined, name_relocate]

theorem same_relocate (f g : Function) : (f.relocate h).same (g.relocate h) = f.same g := by
  rw [same, same, identity_relocate, identity_relocate]

end Function

namespace Value

mutual

theorem textIn_relocate : ∀ (v : Value) (inner : Bool), (v.relocate h).textIn inner = v.textIn inner
  | .undefined, _ | .boolean _, _ | .number _, _ | .string _, _ | .list [], _ | .mapping [], _ => rfl
  | .list (v :: vs), _ => by
    simp only [relocate, relocateAll, textIn, v.textIn_relocate, itemsText_relocate vs]
  | .mapping ((key, v) :: es), _ => by
    simp only [relocate, relocateEntries, textIn, v.textIn_relocate, entriesText_relocate es]
  | .function f, _ => f.text_relocate h

theorem itemsText_relocate : ∀ (vs : List Value) (text : String),
    itemsText text (relocateAll h vs) = itemsText text vs
  | [], _ => rfl
  | v :: vs, _ => by
    simp only [relocateAll, itemsText, v.textIn_relocate, itemsText_relocate vs]

theorem entriesText_relocate : ∀ (es : List (String × Value)) (text : String),
    entriesText text (relocateEntries h es) = entriesText text es
  | [], _ => rfl
  | (key, v) :: es, _ => by
    simp only [relocateEntries, entriesText, v.textIn_relocate, entriesText_relocate es]

end

@[simp] theorem text_relocate (v : Value) : (v.relocate h).text = v.text :=
  v.textIn_relocate h false

mutual

/-- Functions compare by where they were defined and not by what they hold. -/
theorem same_relocate : ∀ v w : Value, (v.relocate h).same (w.relocate h) = v.same w
  | .undefined, w | .boolean _, w | .number _, w | .string _, w => by cases w <;> rfl
  | .list vs, w => by
    cases w with
    | list ws => exact sameItems_relocate vs ws
    | _ => rfl
  | .mapping es, w => by
    cases w with
    | mapping fs => exact sameEntries_relocate es fs
    | _ => rfl
  | .function f, w => by
    cases w with
    | function g => exact f.same_relocate h g
    | _ => rfl

theorem sameItems_relocate : ∀ vs ws : List Value,
    sameItems (relocateAll h vs) (relocateAll h ws) = sameItems vs ws
  | [], ws => by cases ws <;> rfl
  | v :: vs, [] => rfl
  | v :: vs, w :: ws => by
    simp only [relocateAll, sameItems, same_relocate v w, sameItems_relocate vs ws]

theorem sameEntries_relocate : ∀ es fs : List (String × Value),
    sameEntries (relocateEntries h es) (relocateEntries h fs) = sameEntries es fs
  | [], fs => by cases fs <;> rfl
  | (k, v) :: es, [] => rfl
  | (k, v) :: es, (l, w) :: fs => by
    simp only [relocateEntries, sameEntries, same_relocate v w, sameEntries_relocate es fs]

end

/-! ### Operators -/

@[simp] theorem ofLiteral_relocate (l : Literal) : (ofLiteral l).relocate h = ofLiteral l := by
  cases l <;> rfl

theorem order_relocate (op : BinaryOp) (v w : Value) : order op (v.relocate h) (w.relocate h) = order op v w := by
  cases v <;> cases w <;> rfl

theorem contains_relocate (v w : Value) : contains (v.relocate h) (w.relocate h) = contains v w := by
  cases v with
  | list items =>
    have hany : ((relocateAll h items).any fun item => item.same (w.relocate h)) =
        items.any fun item => item.same w := by
      simp only [relocateAll_eq_map, List.any_map, Function.comp_def, same_relocate]
    exact congrArg Except.ok hany
  | mapping es =>
    cases w with
    | string key =>
      have hkey : ((relocateEntries h es).lookup key).isSome = (es.lookup key).isSome := by
        rw [lookup_relocateEntries, Option.isSome_map]
      exact congrArg Except.ok hkey
    | _ => rfl
  | _ => cases w <;> rfl

theorem add_relocate (v w : Value) : add (v.relocate h) (w.relocate h) = (add v w).map (relocate h) := by
  cases v with
  | list as =>
    cases w with
    | list bs =>
      simp only [relocate, add, Except.map, relocateAll_eq_map, List.map_append]
    | _ => rfl
  | _ => cases w <;> rfl

theorem arithmetic_relocate (op : BinaryOp) (f : Float → Float → Float) (v w : Value) :
    arithmetic op f (v.relocate h) (w.relocate h) = (arithmetic op f v w).map (relocate h) := by
  cases v <;> cases w <;> rfl

theorem division_relocate (op : BinaryOp) (f : Float → Float → Float) (v w : Value) :
    division op f (v.relocate h) (w.relocate h) = (division op f v w).map (relocate h) := by
  cases v with
  | number a =>
    cases w with
    | number b =>
      simp only [relocate, division]
      split <;> rfl
    | _ => rfl
  | _ => cases w <;> rfl

theorem negate_relocate (v : Value) : (v.relocate h).negate = v.negate.map (relocate h) := by
  cases v <;> rfl

theorem binary_relocate (op : BinaryOp) (v w : Value) :
    binary op (v.relocate h) (w.relocate h) = (binary op v w).map (relocate h) := by
  have hordered (test : Ordering → Bool) : ((order op v w).map fun o => boolean (test o)) =
      ((order op v w).map fun o => boolean (test o)).map (relocate h) := by
    cases order op v w <;> rfl
  cases op with
  | or | and =>
    simp only [binary, truthy_relocate]
    split <;> rfl
  | eq | notEq =>
    simp only [binary, same_relocate]
    rfl
  | lt | ltEq | gt | gtEq =>
    simp only [binary, order_relocate]
    exact hordered _
  | isIn | notIn =>
    simp only [binary, contains_relocate]
    cases contains w v <;> rfl
  | add => exact add_relocate h v w
  | sub | mul => exact arithmetic_relocate h _ _ v w
  | div | mod => exact division_relocate h _ _ v w

theorem itemAt_map {α β : Type} (f : α → β) (items : List α) (n : Float) :
    itemAt (items.map f) n = (itemAt items n).map (Option.map f) := by
  unfold itemAt
  rw [List.length_map]
  cases Number.integer? n with
  | none => rfl
  | some i =>
    simp only [Except.map]
    generalize (if i < 0 then (items.length : Int) + i else i) = place
    split
    · rfl
    · rw [List.getElem?_map]

theorem index_relocate (v w : Value) : (v.relocate h).index (w.relocate h) = (v.index w).map (relocate h) := by
  cases v with
  | list items =>
    cases w with
    | number n =>
      simp only [relocate, index, relocateAll_eq_map, itemAt_map]
      cases itemAt items n with
      | error e => rfl
      | ok item => cases item <;> rfl
    | _ => rfl
  | string s =>
    cases w with
    | number n =>
      simp only [relocate, index]
      cases itemAt s.toList n with
      | error e => rfl
      | ok item => cases item <;> rfl
    | _ => rfl
  | mapping es =>
    cases w with
    | string key =>
      simp only [relocate, index, lookup_relocateEntries]
      cases es.lookup key <;> rfl
    | _ => rfl
  | _ => cases w <;> rfl

theorem member_relocate (serial : Nat) (name : String) (v : Value) :
    (v.relocate h).member serial name = (v.member serial name).relocate h := by
  cases v with
  | string s =>
    simp only [relocate, member]
    cases StringMethod.all.find? (·.name == name) <;> rfl
  | mapping es =>
    simp only [relocate, member, lookup_relocateEntries]
    cases es.lookup name with
    | some v => rfl
    | none => cases MappingMethod.all.find? (·.name == name) <;> rfl
  | _ => rfl

end Value

end

end TemplatedSql
