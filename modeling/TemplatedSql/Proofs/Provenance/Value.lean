import Mathlib.Data.Option.Basic
import Mathlib.Data.Set.Basic
import TemplatedSql.Eval.Render
import TemplatedSql.Proofs.Alike.Value
import TemplatedSql.Proofs.Binding

/-! # The functions in a value

A macro is made by the tag that defines it, and a function of the host by the host: what operators, methods and built-in
functions give holds none that their operands do not hold. -/

namespace TemplatedSql

/-- The functions that values may hold: some macros, and functions of the host by their keys and the names that each of
    them goes by. -/
structure Known where
  macros : Set MacroDef
  hosts : Nat → Set String

mutual

/-- The value holds only known functions. -/
def Value.Among (known : Known) : Value → Prop
  | .list items => Value.AllAmong known items
  | .mapping entries => Value.EntriesAmong known entries
  | .function f => f.Among known
  | _ => True

/-- The same of a list of values. -/
def Value.AllAmong (known : Known) : List Value → Prop
  | [] => True
  | v :: vs => v.Among known ∧ Value.AllAmong known vs

/-- The same of the entries of a mapping. -/
def Value.EntriesAmong (known : Known) : List (String × Value) → Prop
  | [] => True
  | (_, v) :: es => v.Among known ∧ Value.EntriesAmong known es

/-- The same of a function. A method has the value it was taken from. -/
def Function.Among (known : Known) : Function → Prop
  | .mappingMethod _ receiver _ => Value.EntriesAmong known receiver
  | .host key name => name ∈ known.hosts key
  | .defined d _ _ => d ∈ known.macros
  | _ => True

end

section
variable {known : Known}

namespace Value
variable {u v w : Value}

theorem allAmong_iff {vs : List Value} : AllAmong known vs ↔ ∀ v ∈ vs, v.Among known := by
  induction vs with
  | nil => exact iff_of_true trivial (List.forall_mem_nil _)
  | cons v vs ih =>
    rw [List.forall_mem_cons]
    exact and_congr_right' ih

theorem entriesAmong_iff {es : List (String × Value)} : EntriesAmong known es ↔ ∀ e ∈ es, e.2.Among known := by
  induction es with
  | nil => exact iff_of_true trivial (List.forall_mem_nil _)
  | cons e es ih =>
    rw [List.forall_mem_cons]
    exact and_congr_right' ih

@[simp] theorem among_undefined : undefined.Among known := trivial
@[simp] theorem among_boolean (b : Bool) : (boolean b).Among known := trivial
@[simp] theorem among_number (n : Float) : (number n).Among known := trivial
@[simp] theorem among_string (s : String) : (string s).Among known := trivial

@[simp] theorem among_list {vs : List Value} : (list vs).Among known ↔ ∀ v ∈ vs, v.Among known :=
  allAmong_iff

@[simp] theorem among_mapping {es : List (String × Value)} :
    (mapping es).Among known ↔ ∀ e ∈ es, e.2.Among known :=
  entriesAmong_iff

@[simp] theorem among_function {f : Function} : (function f).Among known ↔ f.Among known :=
  Iff.rfl

end Value

namespace Function

@[simp] theorem among_builtin (b : Builtin) : (builtin b).Among known := trivial

@[simp] theorem among_stringMethod (serial : Nat) (s : String) (m : StringMethod) :
    (stringMethod serial s m).Among known :=
  trivial

@[simp] theorem among_mappingMethod {serial : Nat} {es : List (String × Value)} {m : MappingMethod} :
    (mappingMethod serial es m).Among known ↔ ∀ e ∈ es, e.2.Among known :=
  Value.entriesAmong_iff

@[simp] theorem among_host {key : Nat} {name : String} : (host key name).Among known ↔ name ∈ known.hosts key :=
  Iff.rfl

@[simp] theorem among_defined {d : MacroDef} {address : Address} {scope : Nat} :
    (defined d address scope).Among known ↔ d ∈ known.macros :=
  Iff.rfl

end Function

/-! ### Values without scopes -/

mutual

/-- Every macro has a scope, so a value without scopes has no macros. -/
theorem Value.among_of_scopes (hhosts : ∀ key name, name ∈ known.hosts key) :
    ∀ v : Value, v.scopes = [] → v.Among known
  | .undefined, _ | .boolean _, _ | .number _, _ | .string _, _ => trivial
  | .list vs, h => by
    rw [Value.scopes] at h
    exact Value.allAmong_of_scopes hhosts vs h
  | .mapping es, h => by
    rw [Value.scopes] at h
    exact Value.entriesAmong_of_scopes hhosts es h
  | .function f, h => by
    rw [Value.scopes] at h
    exact f.among_of_scopes hhosts h

theorem Value.allAmong_of_scopes (hhosts : ∀ key name, name ∈ known.hosts key) :
    ∀ vs : List Value, Value.allScopes vs = [] → Value.AllAmong known vs
  | [], _ => trivial
  | v :: vs, h => by
    rw [Value.allScopes, List.append_eq_nil_iff] at h
    exact ⟨v.among_of_scopes hhosts h.1, Value.allAmong_of_scopes hhosts vs h.2⟩

theorem Value.entriesAmong_of_scopes (hhosts : ∀ key name, name ∈ known.hosts key) :
    ∀ es : List (String × Value), Value.entriesScopes es = [] → Value.EntriesAmong known es
  | [], _ => trivial
  | (_, v) :: es, h => by
    rw [Value.entriesScopes, List.append_eq_nil_iff] at h
    exact ⟨v.among_of_scopes hhosts h.1, Value.entriesAmong_of_scopes hhosts es h.2⟩

theorem Function.among_of_scopes (hhosts : ∀ key name, name ∈ known.hosts key) :
    ∀ f : Function, f.scopes = [] → f.Among known
  | .builtin _, _ | .stringMethod .., _ => trivial
  | .host key name, _ => Function.among_host.mpr (hhosts key name)
  | .mappingMethod _ es _, h => by
    rw [Function.scopes] at h
    exact Value.entriesAmong_of_scopes hhosts es h
  | .defined .., h => by
    rw [Function.scopes] at h
    cases h

end

/-! ### Operators -/

namespace Value
variable {u v w : Value}

theorem among_getD {o : Option Value} (h : ∀ v ∈ o, v.Among known) : (o.getD undefined).Among known := by
  cases o with
  | none => exact among_undefined
  | some v => exact h v rfl

theorem among_of_lookup {es : List (String × Value)} (hes : ∀ e ∈ es, e.2.Among known) {key : String}
    (h : es.lookup key = some v) : v.Among known :=
  hes _ (Table.mem_of_get? h)

theorem among_ofLiteral (l : Literal) : (ofLiteral l).Among known := by
  cases l <;> simp [ofLiteral]

theorem mem_of_itemAt {α : Type} {items : List α} {n : Float} {a : α} (h : itemAt items n = .ok (some a)) :
    a ∈ items := by
  unfold itemAt at h
  split at h
  · cases h
  · simp only [Except.ok.injEq, Option.ite_none_left_eq_some] at h
    exact List.mem_of_getElem? h.2

theorem Among.binary {op : BinaryOp} (hv : v.Among known) (hw : w.Among known) (h : binary op v w = .ok u) :
    u.Among known := by
  have hboolean {ε α : Type} {r : Except ε α} {f : α → Bool} (h : (r.map fun a => boolean (f a)) = .ok u) :
      u.Among known := by
    obtain ⟨a, -, rfl⟩ := map_eq_ok_iff.mp h
    exact among_boolean _
  cases op with
  | or | and =>
    cases h
    split
    · assumption
    · assumption
  | eq | notEq =>
    cases h
    exact among_boolean _
  | lt | ltEq | gt | gtEq | isIn | notIn => exact hboolean h
  | add =>
    unfold Value.binary add at h
    dsimp only at h
    split at h
    · cases h
      exact among_number _
    · cases h
      exact among_string _
    · cases h
      exact among_list.mpr (List.forall_mem_append.mpr ⟨among_list.mp hv, among_list.mp hw⟩)
    · cases h
  | sub | mul =>
    unfold Value.binary arithmetic at h
    dsimp only at h
    split at h
    · cases h
      exact among_number _
    · cases h
  | div | mod =>
    unfold Value.binary division at h
    dsimp only at h
    split at h
    · split at h
      · cases h
      · cases h
        exact among_number _
    · cases h

theorem among_negate (h : v.negate = .ok u) : u.Among known := by
  unfold negate at h
  split at h
  · cases h
    exact among_number _
  · cases h

theorem Among.index (hv : v.Among known) (h : v.index w = .ok u) : u.Among known := by
  unfold Value.index at h
  split at h
  · cases h
    exact among_undefined
  · cases h
    exact among_undefined
  · obtain ⟨item, hitem, rfl⟩ := map_eq_ok_iff.mp h
    exact among_getD fun v hmem => among_list.mp hv v (mem_of_itemAt (hitem.trans (congrArg Except.ok hmem)))
  · obtain ⟨c, -, rfl⟩ := map_eq_ok_iff.mp h
    cases c <;> simp
  · cases h
    exact among_getD fun v hmem => among_of_lookup (among_mapping.mp hv) hmem
  · cases h

theorem Among.member (hv : v.Among known) (serial : Nat) (name : String) : (v.member serial name).Among known := by
  unfold Value.member
  split
  · cases StringMethod.all.find? (·.name == name) <;> simp
  · split
    · rename_i hlookup
      exact among_of_lookup (among_mapping.mp hv) hlookup
    · cases MappingMethod.all.find? (·.name == name) with
      | none => exact among_undefined
      | some m => exact among_function.mpr (Function.among_mappingMethod.mpr (among_mapping.mp hv))
  · exact among_undefined

/-- A loop binds the items of a value or their parts. -/
theorem Among.loopRounds (hv : v.Among known) {p : Position} {targets : Targets} {iterable : Expr}
    {rounds : List (Table Value)} (h : loopRounds p targets iterable v = .ok rounds) :
    ∀ bindings ∈ rounds, ∀ b ∈ bindings, b.2.Among known := by
  unfold TemplatedSql.loopRounds at h
  split at h
  · have hitems := among_list.mp hv
    split at h
    · cases h
      simpa using hitems
    · intro bindings hbindings
      obtain ⟨item, hitem, hpair⟩ := exists_of_mem_mapM h hbindings
      split at hpair
      · cases hpair
        simpa using hitems _ hitem
      · cases hpair
  · have hentries := among_mapping.mp hv
    split at h
    · cases h
      intro bindings hbindings
      obtain ⟨e, -, rfl⟩ := List.mem_map.mp hbindings
      simp
    · cases h
      intro bindings hbindings
      obtain ⟨e, he, rfl⟩ := List.mem_map.mp hbindings
      simpa using hentries e he
  · cases h
  · cases h

theorem among_loopInfo (round rounds : Nat) : (loopInfo round rounds).Among known := by
  simp [loopInfo]

end Value

/-! ### Arguments -/

section
variable {as : List Argument} (has : ∀ a ∈ as, a.value.Among known)
include has

theorem Argument.among_of_find? {place : Nat} {name : String} {v : Value} (h : find? as place name = some v) :
    v.Among known := by
  obtain ⟨a, ha, rfl⟩ := Option.map_eq_some_iff.mp h
  rcases (Option.orElse_eq_some _ _ _).mp ha with ha | ⟨-, ha⟩
  · exact has a (List.mem_of_find?_eq_some ha)
  · exact has a (List.mem_of_mem_filter (List.mem_of_getElem? ha))

namespace MacroDef
variable {d : MacroDef}

theorem among_of_place {value : Option Value} (h : value ∈ d.place as) : ∀ v ∈ value, v.Among known := by
  rcases List.mem_append.mp h with h | h
  · obtain ⟨a, ha, rfl⟩ := List.mem_map.mp h
    rintro _ ⟨⟩
    exact has a ha
  · rw [List.eq_of_mem_replicate h]
    exact fun v hv => nomatch hv

omit has in
theorem among_of_replace {before after : List (Option Value)} (hbefore : ∀ value ∈ before, ∀ v ∈ value, v.Among known)
    {a : Argument} (ha : a.value.Among known) (h : d.replace before a = .ok after) :
    ∀ value ∈ after, ∀ v ∈ value, v.Among known := by
  unfold replace at h
  dsimp only at h
  split at h
  · cases h
    intro value hvalue
    rcases List.mem_or_eq_of_mem_set hvalue with hvalue | rfl
    · exact hbefore value hvalue
    · rintro _ ⟨⟩
      exact ha
  · cases h

omit has in
theorem among_of_complete {p : Parameter} {value : Option Value} (hvalue : ∀ v ∈ value, v.Among known)
    {b : String × Value} (h : d.complete (p, value) = .ok b) : b.2.Among known := by
  obtain ⟨v, rfl, hv⟩ := complete_eq_ok_iff.mp h
  rcases (Option.orElse_eq_some _ _ _).mp hv with hv | ⟨-, hv⟩
  · exact hvalue v hv
  · obtain ⟨l, -, rfl⟩ := Option.map_eq_some_iff.mp hv
    exact Value.among_ofLiteral l

/-- The values of the parameters of a macro are arguments or defaults. -/
theorem among_of_bindArguments {bindings : Table Value} (h : d.bindArguments as = .ok bindings) :
    ∀ b ∈ bindings, b.2.Among known := by
  unfold bindArguments at h
  dsimp only at h
  split at h
  · cases h
  · obtain ⟨values, hvalues, h⟩ := bind_eq_ok_iff.mp h
    have hgiven : ∀ value ∈ d.place (as.filter (·.name.isNone)), ∀ v ∈ value, v.Among known := fun _ =>
      among_of_place fun a ha => has a (List.mem_of_mem_filter ha)
    have hvalues : ∀ value ∈ values, ∀ v ∈ value, v.Among known :=
      foldlM_preserves (P := fun values => ∀ value ∈ values, ∀ v ∈ value, v.Among known) hgiven
        (fun _ a ha _ hbefore => among_of_replace hbefore (has a (List.mem_of_mem_filter ha))) hvalues
    intro b hb
    obtain ⟨⟨p, value⟩, hpair, hcompleted⟩ := exists_of_mem_mapM h hb
    exact among_of_complete (hvalues value (List.of_mem_zip hpair).2) hcompleted

end MacroDef

end

/-! ### What native functions do -/

theorem StringMethod.among_of_apply {m : StringMethod} {s : String} {as : List Argument} {v : Value}
    (h : m.apply s as = .ok v) : v.Among known := by
  have htexts (texts : List (List Char)) : (Value.ofTexts texts).Among known := by
    simp [Value.ofTexts]
  cases m with
  | upper | lower =>
    cases h
    exact Value.among_string _
  | strip =>
    obtain ⟨drop, -, h⟩ := bind_eq_ok_iff.mp h
    cases drop <;> cases h <;> exact Value.among_string _
  | replace =>
    obtain ⟨old, -, h⟩ := bind_eq_ok_iff.mp h
    obtain ⟨new, -, h⟩ := bind_eq_ok_iff.mp h
    cases h
    exact Value.among_string _
  | split =>
    obtain ⟨sep, -, h⟩ := bind_eq_ok_iff.mp h
    rcases sep with _ | _ | ⟨c, cs⟩ <;> cases h <;> exact htexts _
  | startsWith | endsWith =>
    obtain ⟨part, -, h⟩ := bind_eq_ok_iff.mp h
    cases h
    exact Value.among_boolean _
  | join =>
    unfold apply at h
    dsimp only at h
    split at h
    · cases h
      exact Value.among_string _
    · cases h
    · cases h

section
variable {as : List Argument} (has : ∀ a ∈ as, a.value.Among known)
include has

theorem MappingMethod.among_apply (m : MappingMethod) {es : List (String × Value)} (hes : ∀ e ∈ es, e.2.Among known) :
    (m.apply es as).Among known := by
  cases m with
  | keys => exact Value.among_list.mpr (List.forall_mem_map.mpr fun _ _ => Value.among_string _)
  | values => exact Value.among_list.mpr (List.forall_mem_map.mpr hes)
  | items =>
    refine Value.among_list.mpr (List.forall_mem_map.mpr fun e he => Value.among_list.mpr ?_)
    exact List.forall_mem_cons.mpr ⟨Value.among_string e.1, List.forall_mem_singleton.mpr (hes e he)⟩
  | get =>
    refine Value.among_getD fun v hv => ?_
    rcases (Option.orElse_eq_some _ _ _).mp hv with hv | ⟨-, hv⟩
    · split at hv
      · exact Value.among_of_lookup hes hv
      · cases hv
    · exact Argument.among_of_find? has hv

end

/-- The values that an action binds or ends with hold only known functions, as long as those that it reads do. -/
inductive Action.Among (known : Known) : Action → Prop
  | finish {v : Value} (h : v.Among known) : Action.Among known (.finish v)
  | fail (cause : Cause) : Action.Among known (.fail cause)
  | log {next : Action} (message : String) (h : next.Among known) : Action.Among known (.log message next)
  | read {next : Value → Action} (name : String) (h : ∀ v, v.Among known → (next v).Among known) :
    Action.Among known (.read name next)
  | bind {v : Value} {next : Action} (name : String) (hv : v.Among known) (h : next.Among known) :
    Action.Among known (.bind name v next)

/-- The native function gives and binds only known functions where it gets such arguments and reads such values. -/
def HostFunction.Keeps (known : Known) (f : HostFunction) : Prop :=
  ∀ p as, (∀ a ∈ as, a.value.Among known) → (f.act p as).Among known

theorem Action.among_ofExcept {r : Except Cause Value} (h : ∀ v, r = .ok v → v.Among known) :
    (Action.ofExcept r).Among known := by
  cases r with
  | ok v => exact .finish (h v rfl)
  | error cause => exact .fail cause

theorem among_of_rangeValue {as : List Argument} {v : Value} (h : rangeValue as = .ok v) : v.Among known := by
  have hlist {items : Except Cause (List Int)}
      (h : (items >>= fun items => .ok (.list (items.map fun i => .number (.ofInt i)))) = .ok v) : v.Among known := by
    obtain ⟨items, -, h⟩ := bind_eq_ok_iff.mp h
    cases h
    exact Value.among_list.mpr (List.forall_mem_map.mpr fun _ _ => Value.among_number _)
  obtain ⟨bounds, -, h⟩ := bind_eq_ok_iff.mp h
  dsimp only at h
  split at h
  · exact hlist h
  · exact hlist h
  · exact hlist h
  · cases h

theorem among_of_lenValue {as : List Argument} {v : Value} (h : lenValue as = .ok v) : v.Among known := by
  unfold lenValue at h
  dsimp only at h
  split at h <;> cases h <;> exact Value.among_number _

theorem Builtin.act_among (b : Builtin) (as : List Argument) : (b.act as).Among known := by
  cases b with
  | range => exact Action.among_ofExcept fun _ => among_of_rangeValue
  | len => exact Action.among_ofExcept fun _ => among_of_lenValue
  | log => exact .log _ (.finish Value.among_undefined)
  | raiseError => exact .fail _

theorem Eval.action_among {env : Environment} (hhosts : ∀ f ∈ env.hosts, f.Keeps known) (p : Position)
    {as : List Argument} (has : ∀ a ∈ as, a.value.Among known) {f : Function} (hf : f.Among known) :
    (action env p as f).Among known := by
  cases f with
  | builtin b => exact b.act_among as
  | stringMethod serial s m => exact Action.among_ofExcept fun _ => StringMethod.among_of_apply
  | mappingMethod serial es m => exact .finish (m.among_apply has (Function.among_mappingMethod.mp hf))
  | host key name =>
    rw [action]
    cases hkey : env.hosts[key]? with
    | none => exact .finish Value.among_undefined
    | some f => exact hhosts f (List.mem_of_getElem? hkey) p as has
  | defined d address scope => exact .finish Value.among_undefined

end

end TemplatedSql
