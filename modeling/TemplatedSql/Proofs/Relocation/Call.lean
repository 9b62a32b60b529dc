import TemplatedSql.Eval.Call
import TemplatedSql.Proofs.Except
import TemplatedSql.Proofs.Relocation.Value

/-! # Calls with moved arguments

Binding the parameters of a macro, the methods and the built-in functions commute with moving the macros in the
arguments. -/

namespace TemplatedSql

/-- The argument with the places in its macros moved. -/
def Argument.relocate (h : Position → Position) (a : Argument) : Argument :=
  ⟨a.name, a.value.relocate h⟩

section
variable (h : Position → Position) (as : List Argument)

namespace Argument

theorem find?_relocate (place : Nat) (name : String) :
    find? (as.map (relocate h)) place name = (find? as place name).map (Value.relocate h) := by
  have hnamed : (as.map (relocate h)).find? (·.name == some name) =
      (as.find? (·.name == some name)).map (relocate h) := List.find?_map
  have hpositional : (as.map (relocate h)).filter (·.name.isNone) =
      (as.filter (·.name.isNone)).map (relocate h) := List.filter_map
  rw [find?, find?, hnamed, hpositional, List.getElem?_map]
  cases as.find? (·.name == some name) with
  | some a => rfl
  | none => cases (as.filter (·.name.isNone))[place]? <;> rfl

@[simp] theorem string_relocate (place : Nat) (name function : String) :
    string (as.map (relocate h)) place name function = string as place name function := by
  rw [string, string, find?_relocate]
  cases find? as place name with
  | none => rfl
  | some v => cases v <;> rfl

@[simp] theorem string?_relocate (place : Nat) (name function : String) :
    string? (as.map (relocate h)) place name function = string? as place name function := by
  rw [string?, string?, find?_relocate, string_relocate]
  cases find? as place name with
  | none => rfl
  | some v => cases v <;> rfl

theorem integer_relocate (a : Argument) : (a.relocate h).integer = a.integer := by
  obtain ⟨name, v⟩ := a
  cases v <;> rfl

end Argument

theorem MacroDef.place_relocate (d : MacroDef) (positional : List Argument) :
    (d.relocate h).place (positional.map (Argument.relocate h)) =
      (d.place positional).map (Option.map (Value.relocate h)) := by
  simp [place, Argument.relocate]

theorem MacroDef.replace_relocate (d : MacroDef) (values : List (Option Value)) (a : Argument) :
    (d.relocate h).replace (values.map (Option.map (Value.relocate h))) (a.relocate h) =
      (d.replace values a).map (List.map (Option.map (Value.relocate h))) := by
  unfold replace
  simp only [name_relocate, parameters_relocate, Argument.relocate]
  cases d.parameters.findIdx? (·.name == a.name.getD "") with
  | none => rfl
  | some i => simp [Except.map, List.map_set]

theorem MacroDef.complete_relocate (d : MacroDef) (p : Parameter) (value : Option Value) :
    (d.relocate h).complete (p, value.map (Value.relocate h)) =
      (d.complete (p, value)).map fun x => (x.1, x.2.relocate h) := by
  unfold complete
  cases value with
  | some v => rfl
  | none =>
    cases hp : p.default with
    | some l => simp [hp, Except.map]
    | none => simp [hp, Except.map]

theorem MacroDef.bindArguments_relocate (d : MacroDef) :
    (d.relocate h).bindArguments (as.map (Argument.relocate h)) =
      (d.bindArguments as).map (Value.relocateEntries h) := by
  have hpositional : (as.map (Argument.relocate h)).filter (·.name.isNone) =
      (as.filter (·.name.isNone)).map (Argument.relocate h) := List.filter_map
  have hnamed : (as.map (Argument.relocate h)).filter (·.name.isSome) =
      (as.filter (·.name.isSome)).map (Argument.relocate h) := List.filter_map
  unfold bindArguments
  simp only [name_relocate, parameters_relocate, hpositional, hnamed, List.length_map]
  split
  · rfl
  · rw [place_relocate, foldlM_map (d.replace_relocate (h := h)), funext (Value.relocateEntries_eq_map h)]
    cases (as.filter (·.name.isSome)).foldlM d.replace (d.place (as.filter (·.name.isNone))) with
    | error e => rfl
    | ok values =>
      show ((d.parameters.zip (values.map (Option.map (Value.relocate h)))).mapM _) = Except.map _ (List.mapM _ _)
      rw [List.zip_map_right, List.mapM_map]
      exact mapM_map (fun x => complete_relocate h d x.1 x.2) (d.parameters.zip values)

/-! ### Methods and built-in functions -/

@[simp] theorem Value.ofTexts_relocate (texts : List (List Char)) : (ofTexts texts).relocate h = ofTexts texts := by
  simp [ofTexts, relocateAll_eq_map, Function.comp_def]

theorem StringMethod.apply_relocate (m : StringMethod) (s : String) :
    m.apply s (as.map (Argument.relocate h)) = (m.apply s as).map (Value.relocate h) := by
  cases m with
  | upper | lower => rfl
  | strip =>
    simp only [apply, Argument.string?_relocate]
    cases Argument.string? as 0 "chars" (name strip) with
    | error e => rfl
    | ok drop => cases drop <;> rfl
  | replace =>
    simp only [apply, Argument.string_relocate]
    cases Argument.string as 0 "old" (name replace) with
    | error e => rfl
    | ok old => cases Argument.string as 1 "new" (name replace) <;> rfl
  | split =>
    simp only [apply, Argument.string?_relocate]
    cases Argument.string? as 0 "sep" (name split) with
    | error e => rfl
    | ok sep =>
      rcases hsep : Option.map String.toList sep with _ | _ | ⟨c, cs⟩ <;>
        simp [hsep, Except.map, bind, Except.bind, Functor.map]
  | startsWith =>
    simp only [apply, Argument.string_relocate]
    cases Argument.string as 0 "prefix" (name startsWith) <;> rfl
  | endsWith =>
    simp only [apply, Argument.string_relocate]
    cases Argument.string as 0 "suffix" (name endsWith) <;> rfl
  | join =>
    simp only [apply, Argument.find?_relocate]
    cases Argument.find? as 0 "items" with
    | none => rfl
    | some v =>
      cases v with
      | list items =>
        simp [Value.relocateAll_eq_map, Function.comp_def, Except.map]
      | _ => rfl

theorem MappingMethod.apply_relocate (m : MappingMethod) (entries : List (String × Value)) :
    m.apply (Value.relocateEntries h entries) (as.map (Argument.relocate h)) =
      (m.apply entries as).relocate h := by
  cases m with
  | keys | values | items =>
    simp [apply, Value.relocateEntries_eq_map, Value.relocateAll_eq_map, Function.comp_def]
  | get =>
    simp only [apply, Argument.find?_relocate]
    cases Argument.find? as 0 "key" with
    | none => cases Argument.find? as 1 "default" <;> rfl
    | some v =>
      cases v with
      | string key =>
        simp only [Option.map_some, Value.relocate, Value.lookup_relocateEntries]
        cases entries.lookup key with
        | some v => rfl
        | none => cases Argument.find? as 1 "default" <;> rfl
      | _ => cases Argument.find? as 1 "default" <;> rfl

theorem rangeValue_relocate :
    rangeValue (as.map (Argument.relocate h)) = (rangeValue as).map (Value.relocate h) := by
  have hbounds : (as.map (Argument.relocate h)).mapM Argument.integer = as.mapM Argument.integer := by
    rw [List.mapM_map]
    exact congrArg as.mapM (funext (Argument.integer_relocate h))
  have hitems (items : Except Cause (List Int)) :
      (items >>= fun items => .ok (.list (items.map fun i => .number (.ofInt i)))) =
        Except.map (Value.relocate h) (items >>= fun items => .ok (.list (items.map fun i => .number (.ofInt i)))) := by
    cases items with
    | error e => rfl
    | ok items => simp [Except.map, Value.relocateAll_eq_map, bind, Except.bind, Function.comp_def]
  unfold rangeValue
  rw [hbounds]
  cases as.mapM Argument.integer with
  | error e => rfl
  | ok bounds =>
    rcases bounds with _ | ⟨a, _ | ⟨b, _ | ⟨c, _ | ⟨d, more⟩⟩⟩⟩
    · rfl
    · exact hitems (rangeItems 0 a 1)
    · exact hitems (rangeItems a b 1)
    · exact hitems (rangeItems a b c)
    · rfl

theorem lenValue_relocate :
    lenValue (as.map (Argument.relocate h)) = (lenValue as).map (Value.relocate h) := by
  simp only [lenValue, Argument.find?_relocate]
  cases Argument.find? as 0 "value" with
  | none => rfl
  | some v =>
    cases v with
    | list items => simp [Except.map]
    | mapping entries => simp [Except.map]
    | _ => rfl

end

/-! ### What native functions do -/

/-- Actions that do the same, but for the macros in the values. -/
inductive Action.Relocated (h : Position → Position) : Action → Action → Prop
  | finish (v : Value) : Action.Relocated h (.finish v) (.finish (v.relocate h))
  | fail (cause : Cause) : Action.Relocated h (.fail cause) (.fail cause)
  | log {a b} (message : String) (next : Action.Relocated h a b) :
    Action.Relocated h (.log message a) (.log message b)
  | read {f g} (name : String) (next : ∀ v, Action.Relocated h (f v) (g (v.relocate h))) :
    Action.Relocated h (.read name f) (.read name g)
  | bind {a b} (name : String) (v : Value) (next : Action.Relocated h a b) :
    Action.Relocated h (.bind name v a) (.bind name (v.relocate h) b)

/-- A native function that takes no notice of the place of the call and does not look into macros. -/
def HostFunction.Placeless (f : HostFunction) : Prop :=
  ∀ h p q as, Action.Relocated h (f.act p as) (f.act q (as.map (Argument.relocate h)))

theorem Action.relocated_ofExcept {h : Position → Position} {r r' : Except Cause Value} (heq : r' = r.map (Value.relocate h)) :
    Action.Relocated h (.ofExcept r) (.ofExcept r') := by
  subst heq
  cases r with
  | ok v => exact .finish v
  | error cause => exact .fail cause

theorem Builtin.act_relocated (b : Builtin) (h : Position → Position) (as : List Argument) :
    Action.Relocated h (b.act as) (b.act (as.map (Argument.relocate h))) := by
  have hmessage : (Argument.find? (as.map (Argument.relocate h)) 0 "msg").map Value.text =
      (Argument.find? as 0 "msg").map Value.text := by
    rw [Argument.find?_relocate, Option.map_map]
    exact congrArg (Option.map · _) (funext (Value.text_relocate h))
  cases b with
  | range => exact Action.relocated_ofExcept (rangeValue_relocate h as)
  | len => exact Action.relocated_ofExcept (lenValue_relocate h as)
  | log =>
    simp only [act, hmessage]
    exact .log _ (.finish .undefined)
  | raiseError =>
    simp only [act, hmessage]
    exact .fail _

theorem Eval.action_relocated {env env' : Environment} (hhosts : env'.hosts = env.hosts)
    (hplaceless : ∀ f ∈ env.hosts, f.Placeless) (h : Position → Position) (p q : Position) (as : List Argument)
    (f : Function) :
    Action.Relocated h (action env p as f) (action env' q (as.map (Argument.relocate h)) (f.relocate h)) := by
  cases f with
  | builtin b => exact b.act_relocated h as
  | stringMethod serial s m => exact Action.relocated_ofExcept (m.apply_relocate h as s)
  | mappingMethod serial entries m =>
    simp only [action, Function.relocate, m.apply_relocate]
    exact .finish _
  | host key name =>
    simp only [action, Function.relocate, hhosts]
    cases hkey : env.hosts[key]? with
    | none => exact .finish .undefined
    | some f => exact hplaceless f (List.mem_of_getElem? hkey) h p q as
  | defined d address scope => exact .finish .undefined

end TemplatedSql
