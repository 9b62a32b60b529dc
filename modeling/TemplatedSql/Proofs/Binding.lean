import Mathlib.Data.List.Nodup
import TemplatedSql.Eval.Call
import TemplatedSql.Proofs.Except

/-! # Parameters get the arguments that are found for them

A macro puts positional arguments into places, lets arguments with names replace what is there, and takes defaults
for what is left. A native function looks its arguments up one at a time, by name or else by place. Where no name
comes twice, both see the same arguments, and an error names the first thing that does not fit. -/

namespace TemplatedSql

/-- A macro knows positional arguments and those that have the name of a parameter. -/
def MacroDef.Knows (d : MacroDef) (a : Argument) : Prop :=
  ∀ name ∈ a.name, name ∈ d.parameters.map (·.name)

instance (d : MacroDef) (a : Argument) : Decidable (d.Knows a) :=
  inferInstanceAs (Decidable (∀ name ∈ a.name, name ∈ d.parameters.map (·.name)))

/-- What is found for a parameter in a place, or else its default. -/
def Parameter.value? (p : Parameter) (arguments : List Argument) (place : Nat) : Option Value :=
  Argument.find? arguments place p.name <|> p.default.map Value.ofLiteral

theorem Parameter.value?_isSome {p : Parameter} {arguments : List Argument} {place : Nat} :
    (p.value? arguments place).isSome ↔ (Argument.find? arguments place p.name).isSome ∨ p.default.isSome := by
  unfold Parameter.value?
  cases Argument.find? arguments place p.name <;> simp

namespace MacroDef
variable {d : MacroDef} {as arguments : List Argument} {values : List (Option Value)} {a : Argument} {p : Parameter}
  {i : Nat} {name : String}

/-! ### Arguments with names -/

theorem place_eq (hnames : (d.parameters.map (·.name)).Nodup) {j : Nat} {q : Parameter}
    (hp : d.parameters[i]? = some p) (hq : d.parameters[j]? = some q) (h : p.name = q.name) : i = j := by
  have hi : (d.parameters.map (·.name))[i]? = some p.name := by simp [hp]
  have hj : (d.parameters.map (·.name))[j]? = some q.name := by simp [hq]
  exact (List.getElem?_inj (List.getElem?_eq_some_iff.mp hi).1 hnames).mp (hi.trans (h ▸ hj.symm))

theorem replace_of_getElem? (hnames : (d.parameters.map (·.name)).Nodup) (hp : d.parameters[i]? = some p)
    (ha : a.name = some p.name) : d.replace values a = .ok (values.set i (some a.value)) := by
  have hi : d.parameters.findIdx? (·.name == p.name) = some i := by
    obtain ⟨hlt, rfl⟩ := List.getElem?_eq_some_iff.mp hp
    refine List.findIdx?_eq_some_iff_getElem.mpr ⟨hlt, beq_self_eq_true _, fun j hj heq => ?_⟩
    have hq := List.getElem?_eq_getElem (Nat.lt_trans hj hlt)
    exact Nat.ne_of_lt hj (place_eq hnames hq hp (beq_iff_eq.mp heq))
  unfold replace
  rw [ha]
  dsimp only [Option.getD_some]
  rw [hi]

theorem replace_of_not_mem (ha : a.name = some name) (hname : name ∉ d.parameters.map (·.name)) :
    d.replace values a = .error (.unknownArgument d.name name) := by
  have hnone : d.parameters.findIdx? (·.name == name) = none := by
    refine List.findIdx?_eq_none_iff.mpr fun p hp => ?_
    refine beq_eq_false_iff_ne.mpr fun heq => hname ?_
    exact List.mem_map.mpr ⟨p, hp, heq⟩
  unfold replace
  rw [ha]
  dsimp only [Option.getD_some]
  rw [hnone]

/-- Arguments that are known replace the values of the parameters that they name, and no others. -/
theorem foldlM_replace (hnames : (d.parameters.map (·.name)).Nodup) (hknown : ∀ a ∈ as, d.Knows a)
    (hnamed : ∀ a ∈ as, a.name ≠ none) (has : (as.filterMap (·.name)).Nodup) (values : List (Option Value)) :
    ∃ replaced, as.foldlM d.replace values = .ok replaced ∧ ∀ (i : Nat) p v, d.parameters[i]? = some p →
      values[i]? = some v → replaced[i]? = some ((as.find? (·.name == some p.name)).map (·.value) <|> v) := by
  induction as generalizing values with
  | nil => exact ⟨values, rfl, fun _ _ _ _ hv => hv⟩
  | cons a as ih =>
    obtain ⟨name, ha⟩ := Option.ne_none_iff_exists'.mp (hnamed a List.mem_cons_self)
    obtain ⟨q, hq, rfl⟩ := List.mem_map.mp (hknown a List.mem_cons_self name ha)
    obtain ⟨j, hj⟩ := List.mem_iff_getElem?.mp hq
    rw [List.filterMap_cons_some ha, List.nodup_cons] at has
    obtain ⟨replaced, hfold, hreplaced⟩ := ih (fun b hb => hknown b (List.mem_cons_of_mem _ hb))
      (fun b hb => hnamed b (List.mem_cons_of_mem _ hb)) has.2 (values.set j (some a.value))
    refine ⟨replaced, ?_, fun i p v hp hv => ?_⟩
    · rw [List.foldlM_cons, replace_of_getElem? hnames hj ha]
      exact hfold
    · by_cases hij : j = i
      · subst hij
        obtain rfl : q = p := Option.some.inj (hj.symm.trans hp)
        have hlt := (List.getElem?_eq_some_iff.mp hv).1
        -- No later argument has the name again.
        have hnone : as.find? (·.name == some q.name) = none := by
          refine List.find?_eq_none.mpr fun b hb heq => has.1 ?_
          exact List.mem_filterMap.mpr ⟨b, hb, beq_iff_eq.mp heq⟩
        rw [hreplaced j q (some a.value) hp (List.getElem?_set_self hlt), hnone,
          List.find?_cons_of_pos (by simp [ha])]
        rfl
      · have hne : ¬(a.name == some p.name) = true := by
          rw [ha]
          exact fun heq => hij (place_eq hnames hj hp (Option.some.inj (beq_iff_eq.mp heq)))
        rw [hreplaced i p v hp (by rw [List.getElem?_set_ne hij, hv]), List.find?_cons, Bool.eq_false_iff.mpr hne]

/-- Arguments that are not all known have a first that is not. -/
theorem exists_first_unknown (h : ¬∀ a ∈ arguments, d.Knows a) : ∃ before a after name,
    arguments = before ++ a :: after ∧ (∀ b ∈ before, d.Knows b) ∧ a.name = some name ∧
      name ∉ d.parameters.map (·.name) := by
  have hfound : (arguments.find? fun a => !decide (d.Knows a)).isSome := by
    simpa [List.find?_isSome] using h
  obtain ⟨a, ha⟩ := Option.isSome_iff_exists.mp hfound
  obtain ⟨hunknown, before, after, hsplit, hbefore⟩ := List.find?_eq_some_iff_append.mp ha
  have hnot : ¬d.Knows a := by simpa using hunknown
  unfold Knows at hnot
  push Not at hnot
  obtain ⟨name, hname, hmem⟩ := hnot
  exact ⟨before, a, after, name, hsplit, fun b hb => by simpa using hbefore b hb, hname, hmem⟩

/-! ### All arguments -/

theorem getElem?_place {positional : List Argument} (hle : positional.length ≤ d.parameters.length)
    (hi : i < d.parameters.length) : (d.place positional)[i]? = some ((positional[i]?).map (·.value)) := by
  unfold place
  rcases Nat.lt_or_ge i positional.length with h | h
  · rw [List.getElem?_append_left (by simpa using h), List.getElem?_map, List.getElem?_eq_getElem h]
    rfl
  · rw [List.getElem?_append_right (by simpa using h), List.getElem?_eq_none h, List.length_map,
      List.getElem?_replicate_of_lt (by omega)]
    rfl

theorem complete_eq_ok_iff {value : Option Value} {b : String × Value} :
    d.complete (p, value) = .ok b ↔ ∃ v, b = (p.name, v) ∧ (value <|> p.default.map Value.ofLiteral) = some v := by
  unfold complete
  dsimp only
  cases value <|> p.default.map Value.ofLiteral with
  | none =>
    constructor
    · intro h
      cases h
    · rintro ⟨v, -, h⟩
      cases h
  | some v =>
    constructor
    · intro h
      cases h
      exact ⟨v, rfl, rfl⟩
    · rintro ⟨w, rfl, h⟩
      cases h
      rfl

theorem complete_eq_error {value : Option Value} (h : (value <|> p.default.map Value.ofLiteral) = none) :
    d.complete (p, value) = .error (.missingArgument d.name p.name) := by
  unfold complete
  dsimp only
  rw [h]

/-- A name finds the same argument among those with names as among all. -/
theorem find?_named (arguments : List Argument) (name : String) :
    (arguments.filter (·.name.isSome)).find? (·.name == some name) = arguments.find? (·.name == some name) := by
  rw [List.find?_filter]
  congr
  funext a
  cases a.name with
  | none => rfl
  | some n => by_cases h : n = name <;> simp [h]

theorem bindArguments_of_lt (h : d.parameters.length < (arguments.filter (·.name.isNone)).length) :
    d.bindArguments arguments =
      .error (.tooManyArguments d.name d.parameters.length (arguments.filter (·.name.isNone)).length) := by
  unfold bindArguments
  dsimp only
  rw [if_pos h]
  rfl

theorem bindArguments_of_le (h : (arguments.filter (·.name.isNone)).length ≤ d.parameters.length) :
    d.bindArguments arguments =
      (arguments.filter (·.name.isSome)).foldlM d.replace (d.place (arguments.filter (·.name.isNone))) >>=
        fun values => (d.parameters.zip values).mapM d.complete := by
  unfold bindArguments
  dsimp only
  rw [if_neg (Nat.not_lt_of_le h)]

section
variable (hnames : (d.parameters.map (·.name)).Nodup) (harguments : (arguments.filterMap (·.name)).Nodup)
  (hle : (arguments.filter (·.name.isNone)).length ≤ d.parameters.length)
include hnames harguments hle

/-- Where all arguments are known, each parameter is completed from what is found for it in its place. -/
theorem bindArguments_of_known (hknown : ∀ a ∈ arguments, d.Knows a) : d.bindArguments arguments =
    (d.parameters.mapIdx fun i p => (p, Argument.find? arguments i p.name)).mapM d.complete := by
  have hnamed : ((arguments.filter (·.name.isSome)).filterMap (·.name)).Nodup :=
    harguments.sublist (List.filter_sublist.filterMap _)
  obtain ⟨values, hfold, hvalues⟩ := foldlM_replace hnames (fun a ha => hknown a (List.mem_of_mem_filter ha))
    (fun a ha => Option.isSome_iff_ne_none.mp (List.mem_filter.mp ha).2) hnamed
    (d.place (arguments.filter (·.name.isNone)))
  rw [bindArguments_of_le hle, hfold]
  show (d.parameters.zip values).mapM d.complete = _
  congr 1
  refine List.ext_getElem? fun i => ?_
  rw [List.getElem?_mapIdx]
  cases hp : d.parameters[i]? with
  | none =>
    have hlength := List.getElem?_eq_none_iff.mp hp
    refine List.getElem?_eq_none_iff.mpr ?_
    rw [List.length_zip]
    exact Nat.le_trans (Nat.min_le_left _ _) hlength
  | some p =>
    have hi := (List.getElem?_eq_some_iff.mp hp).1
    refine List.getElem?_zip_eq_some.mpr ⟨hp, ?_⟩
    rw [hvalues i p _ hp (getElem?_place hle hi), find?_named]
    show _ = some (Argument.find? arguments i p.name)
    unfold Argument.find?
    cases arguments.find? (·.name == some p.name) <;> rfl

/-- The first argument that is not known ends the binding. -/
theorem bindArguments_of_unknown {before after : List Argument} (hsplit : arguments = before ++ a :: after)
    (hbefore : ∀ b ∈ before, d.Knows b) (ha : a.name = some name) (hname : name ∉ d.parameters.map (·.name)) :
    d.bindArguments arguments = .error (.unknownArgument d.name name) := by
  have hnamed : arguments.filter (·.name.isSome) =
      before.filter (·.name.isSome) ++ a :: after.filter (·.name.isSome) := by
    rw [hsplit, List.filter_append, List.filter_cons_of_pos (by simp [ha])]
  have hdistinct : ((before.filter (·.name.isSome)).filterMap (·.name)).Nodup := by
    refine harguments.sublist (List.Sublist.filterMap _ ?_)
    rw [hsplit]
    exact List.filter_sublist.trans (List.sublist_append_left _ _)
  obtain ⟨replaced, hfold, -⟩ := foldlM_replace hnames (fun b hb => hbefore b (List.mem_of_mem_filter hb))
    (fun b hb => Option.isSome_iff_ne_none.mp (List.mem_filter.mp hb).2) hdistinct
    (d.place (arguments.filter (·.name.isNone)))
  rw [bindArguments_of_le hle, hnamed, List.foldlM_append, hfold]
  show ((a :: after.filter (·.name.isSome)).foldlM d.replace replaced) >>= _ = _
  rw [List.foldlM_cons, replace_of_not_mem ha hname]
  rfl

/-- Where all arguments are known, binding succeeds if every parameter has a value. -/
theorem exists_bindArguments_iff_of_known (hknown : ∀ a ∈ arguments, d.Knows a) :
    (∃ bindings, d.bindArguments arguments = .ok bindings) ↔
      ∀ (i : Nat) (p : Parameter), d.parameters[i]? = some p → (p.value? arguments i).isSome := by
  rw [bindArguments_of_known hnames harguments hle hknown, exists_mapM_eq_ok_iff]
  constructor
  · intro h i p hp
    obtain ⟨b, hb⟩ := h (p, Argument.find? arguments i p.name)
      (List.mem_iff_getElem?.mpr ⟨i, by rw [List.getElem?_mapIdx, hp]; rfl⟩)
    obtain ⟨v, -, hv⟩ := complete_eq_ok_iff.mp hb
    exact Option.isSome_iff_exists.mpr ⟨v, hv⟩
  · intro h x hx
    obtain ⟨i, hi⟩ := List.mem_iff_getElem?.mp hx
    rw [List.getElem?_mapIdx] at hi
    obtain ⟨p, hp, rfl⟩ := Option.map_eq_some_iff.mp hi
    obtain ⟨v, hv⟩ := Option.isSome_iff_exists.mp (h i p hp)
    exact ⟨(p.name, v), complete_eq_ok_iff.mpr ⟨v, rfl, hv⟩⟩

end

/-- Arguments that are bound are not too many, and known. -/
theorem fits_of_bindArguments (hnames : (d.parameters.map (·.name)).Nodup)
    (harguments : (arguments.filterMap (·.name)).Nodup) {bindings : Table Value}
    (h : d.bindArguments arguments = .ok bindings) :
    (arguments.filter (·.name.isNone)).length ≤ d.parameters.length ∧ ∀ a ∈ arguments, d.Knows a := by
  have hle : (arguments.filter (·.name.isNone)).length ≤ d.parameters.length := by
    by_contra hlt
    rw [bindArguments_of_lt (Nat.lt_of_not_le hlt)] at h
    cases h
  refine ⟨hle, ?_⟩
  by_contra hknown
  obtain ⟨before, a, after, name, hsplit, hbefore, ha, hname⟩ := exists_first_unknown hknown
  rw [bindArguments_of_unknown hnames harguments hle hsplit hbefore ha hname] at h
  cases h

end MacroDef

/-! ### Binding -/

open MacroDef

/-- A macro whose parameters have different names binds arguments of different names exactly if no more of them are
positional than there are parameters, every name is that of a parameter, and every parameter has an argument or a
default. An argument is the one that a native function finds under the place and name of the parameter. The result
has the parameters in their order, each with its argument, or with its default if there is none. Otherwise the
error tells of too many positional arguments, or else of the first name that is unknown, or else of the first
parameter that is left. -/
theorem arguments_bind_exactly (d : MacroDef) (arguments : List Argument)
    (hnames : (d.parameters.map (·.name)).Nodup) (harguments : (arguments.filterMap (·.name)).Nodup) :
    let positional := arguments.filter (·.name.isNone)
    ((∃ bindings, d.bindArguments arguments = .ok bindings) ↔
      positional.length ≤ d.parameters.length ∧ (∀ a ∈ arguments, d.Knows a) ∧
        ∀ (i : Nat) (p : Parameter), d.parameters[i]? = some p →
          (Argument.find? arguments i p.name).isSome ∨ p.default.isSome) ∧
    (∀ bindings, d.bindArguments arguments = .ok bindings → bindings.length = d.parameters.length ∧
      ∀ (i : Nat) (p : Parameter), d.parameters[i]? = some p →
        ∃ v, bindings[i]? = some (p.name, v) ∧ p.value? arguments i = some v) ∧
    (d.parameters.length < positional.length → d.bindArguments arguments =
      .error (.tooManyArguments d.name d.parameters.length positional.length)) ∧
    (positional.length ≤ d.parameters.length → ∀ before a after name, arguments = before ++ a :: after →
      (∀ b ∈ before, d.Knows b) → a.name = some name → name ∉ d.parameters.map (·.name) →
      d.bindArguments arguments = .error (.unknownArgument d.name name)) ∧
    (positional.length ≤ d.parameters.length → (∀ a ∈ arguments, d.Knows a) →
      ∀ (i : Nat) (p : Parameter), d.parameters[i]? = some p → p.value? arguments i = none →
      (∀ (j : Nat) (q : Parameter), j < i → d.parameters[j]? = some q → (q.value? arguments j).isSome) →
      d.bindArguments arguments = .error (.missingArgument d.name p.name)) := by
  intro positional
  refine ⟨⟨?_, ?_⟩, fun bindings h => ?_, bindArguments_of_lt, ?_, ?_⟩
  · rintro ⟨bindings, h⟩
    obtain ⟨hle, hknown⟩ := fits_of_bindArguments hnames harguments h
    have hvalues := (exists_bindArguments_iff_of_known hnames harguments hle hknown).mp ⟨bindings, h⟩
    exact ⟨hle, hknown, fun i p hp => Parameter.value?_isSome.mp (hvalues i p hp)⟩
  · rintro ⟨hle, hknown, hvalues⟩
    exact (exists_bindArguments_iff_of_known hnames harguments hle hknown).mpr fun i p hp =>
      Parameter.value?_isSome.mpr (hvalues i p hp)
  · obtain ⟨hle, hknown⟩ := fits_of_bindArguments hnames harguments h
    rw [bindArguments_of_known hnames harguments hle hknown] at h
    have hmap := mapM_eq_ok_iff.mp h
    refine ⟨by simpa using (congrArg List.length hmap).symm, fun i p hp => ?_⟩
    have hi := congrArg (·[i]?) hmap
    simp only [List.getElem?_map, List.getElem?_mapIdx, hp, Option.map_some] at hi
    obtain ⟨b, hb, hcomplete⟩ := Option.map_eq_some_iff.mp hi.symm
    obtain ⟨v, rfl, hv⟩ := complete_eq_ok_iff.mp hcomplete.symm
    exact ⟨v, hb, hv⟩
  · intro hle before a after name hsplit hbefore ha hname
    exact bindArguments_of_unknown hnames harguments hle hsplit hbefore ha hname
  · intro hle hknown i p hp hnone hbefore
    rw [bindArguments_of_known hnames harguments hle hknown]
    refine mapM_eq_error_of_first (i := i) (a := (p, Argument.find? arguments i p.name)) ?_ (fun j x hj hx => ?_) ?_
    · rw [List.getElem?_mapIdx, hp]
      rfl
    · rw [List.getElem?_mapIdx] at hx
      obtain ⟨q, hq, rfl⟩ := Option.map_eq_some_iff.mp hx
      obtain ⟨v, hv⟩ := Option.isSome_iff_exists.mp (hbefore j q hj hq)
      exact ⟨(q.name, v), complete_eq_ok_iff.mpr ⟨v, rfl, hv⟩⟩
    · exact complete_eq_error hnone

/-- A macro that is called with a name before a positional argument and whose second parameter is left to its
default: the third one is bound to the undefined value it is given. -/
theorem arguments_bind_exactly_around_default :
    let p : Position := ⟨1, 1⟩
    let d : MacroDef := ⟨p, "m", [⟨"a", none⟩, ⟨"b", some (.boolean true)⟩, ⟨"c", none⟩], ⟨p, []⟩⟩
    let arguments : List Argument := [⟨some "c", .undefined⟩, ⟨none, .string "x"⟩]
    (d.parameters.map (·.name)).Nodup ∧ (arguments.filterMap (·.name)).Nodup ∧
      ∃ bindings, d.bindArguments arguments = .ok bindings ∧ bindings.length = 3 ∧
        bindings[1]? = some ("b", .boolean true) ∧ bindings[2]? = some ("c", .undefined) := by
  intro p d arguments
  have hnames : (d.parameters.map (·.name)).Nodup := by decide
  have harguments : (arguments.filterMap (·.name)).Nodup := by decide
  obtain ⟨hok, hbindings, -⟩ := arguments_bind_exactly d arguments hnames harguments
  have hfound : ∀ (i : Nat) (q : Parameter), d.parameters[i]? = some q →
      (Argument.find? arguments i q.name).isSome ∨ q.default.isSome
    | 0, _, rfl | 1, _, rfl | 2, _, rfl => by decide
    | _ + 3, _, h => by cases h
  obtain ⟨bindings, h⟩ := hok.mpr ⟨by decide, by decide, hfound⟩
  obtain ⟨hlength, hvalues⟩ := hbindings bindings h
  obtain ⟨v, hb, hv⟩ := hvalues 1 ⟨"b", some (.boolean true)⟩ rfl
  obtain ⟨w, hc, hw⟩ := hvalues 2 ⟨"c", none⟩ rfl
  cases hv
  cases hw
  exact ⟨hnames, harguments, bindings, h, hlength, hb, hc⟩

end TemplatedSql
