import Mathlib.Logic.Relator
import Mathlib.Data.List.Forall2
import Mathlib.Order.ConditionallyCompleteLattice.Basic
import TemplatedSql.Value.Operator

/-! # Values up to renumbering

Two runs of a template may number their scopes differently, and mark the methods they take from values
differently. Values are alike when they differ in these numbers only, by a given correspondence of scopes
and one of marks. Where the correspondences are one to one, no operation on values tells alike values
apart. -/

namespace TemplatedSql

mutual

/-- Values that differ in the scopes of macros and the marks of methods only. -/
inductive Value.Alike (scopes marks : Nat → Nat → Prop) : Value → Value → Prop
  | undefined : Value.Alike scopes marks .undefined .undefined
  | boolean (b : Bool) : Value.Alike scopes marks (.boolean b) (.boolean b)
  | number (n : Float) : Value.Alike scopes marks (.number n) (.number n)
  | string (s : String) : Value.Alike scopes marks (.string s) (.string s)
  | list {as bs} (h : List.Forall₂ (Value.Alike scopes marks) as bs) : Value.Alike scopes marks (.list as) (.list bs)
  | mapping {es fs} (h : List.Forall₂ (Value.EntryAlike scopes marks) es fs) :
    Value.Alike scopes marks (.mapping es) (.mapping fs)
  | function {f g} (h : Function.Alike scopes marks f g) : Value.Alike scopes marks (.function f) (.function g)

/-- Entries with the same key and alike values. -/
inductive Value.EntryAlike (scopes marks : Nat → Nat → Prop) : String × Value → String × Value → Prop
  | mk {a b} (key : String) (h : Value.Alike scopes marks a b) : Value.EntryAlike scopes marks (key, a) (key, b)

/-- Functions that are the same up to the numbers. -/
inductive Function.Alike (scopes marks : Nat → Nat → Prop) : Function → Function → Prop
  | builtin (b : Builtin) : Function.Alike scopes marks (.builtin b) (.builtin b)
  | stringMethod {i j} (h : marks i j) (s : String) (m : StringMethod) :
    Function.Alike scopes marks (.stringMethod i s m) (.stringMethod j s m)
  | mappingMethod {i j es fs} (h : marks i j) (hes : List.Forall₂ (Value.EntryAlike scopes marks) es fs)
    (m : MappingMethod) : Function.Alike scopes marks (.mappingMethod i es m) (.mappingMethod j fs m)
  | host (key : Nat) (name : String) : Function.Alike scopes marks (.host key name) (.host key name)
  | defined {i j} (d : MacroDef) (address : Address) (h : scopes i j) :
    Function.Alike scopes marks (.defined d address i) (.defined d address j)

end

/-! ### The scopes that a value remembers -/

mutual

/-- The scopes of the macros in a value. -/
def Value.scopes : Value → List Nat
  | .list items => Value.allScopes items
  | .mapping entries => Value.entriesScopes entries
  | .function f => f.scopes
  | _ => []

/-- The same of a list of values. -/
def Value.allScopes : List Value → List Nat
  | [] => []
  | v :: vs => v.scopes ++ Value.allScopes vs

/-- The same of the entries of a mapping. -/
def Value.entriesScopes : List (String × Value) → List Nat
  | [] => []
  | (_, v) :: es => v.scopes ++ Value.entriesScopes es

/-- The same of a function. A method has the value it was taken from. -/
def Function.scopes : Function → List Nat
  | .mappingMethod _ receiver _ => Value.entriesScopes receiver
  | .defined _ _ scope => [scope]
  | _ => []

end

section
variable {S S' M : Nat → Nat → Prop}

mutual

/-- Whether values are alike depends only on how the scopes in them correspond. -/
theorem Value.alike_imp : ∀ (v : Value) {w}, v.Alike S M w → (∀ i ∈ v.scopes, S i ≤ S' i) → v.Alike S' M w
  | .undefined, _, .undefined, _ => .undefined
  | .boolean _, _, .boolean b, _ => .boolean b
  | .number _, _, .number n, _ => .number n
  | .string _, _, .string s, _ => .string s
  | .list as, _, .list h, hS => .list (Value.allAlike_imp as h hS)
  | .mapping es, _, .mapping h, hS => .mapping (Value.entriesAlike_imp es h hS)
  | .function f, _, .function h, hS => .function (f.alike_imp h hS)

theorem Value.allAlike_imp : ∀ (as : List Value) {bs}, List.Forall₂ (Value.Alike S M) as bs →
    (∀ i ∈ Value.allScopes as, S i ≤ S' i) → List.Forall₂ (Value.Alike S' M) as bs
  | [], _, .nil, _ => .nil
  | a :: as, _, .cons h hs, hS => .cons (a.alike_imp h fun i hi => hS i (List.mem_append_left _ hi))
    (Value.allAlike_imp as hs fun i hi => hS i (List.mem_append_right _ hi))

theorem Value.entriesAlike_imp : ∀ (es : List (String × Value)) {fs}, List.Forall₂ (Value.EntryAlike S M) es fs →
    (∀ i ∈ Value.entriesScopes es, S i ≤ S' i) → List.Forall₂ (Value.EntryAlike S' M) es fs
  | [], _, .nil, _ => .nil
  | (_, a) :: es, _, .cons (.mk key h) hs, hS =>
    .cons (.mk key (a.alike_imp h fun i hi => hS i (List.mem_append_left _ hi)))
      (Value.entriesAlike_imp es hs fun i hi => hS i (List.mem_append_right _ hi))

theorem Function.alike_imp : ∀ (f : Function) {g}, f.Alike S M g → (∀ i ∈ f.scopes, S i ≤ S' i) → f.Alike S' M g
  | .builtin _, _, .builtin b, _ => .builtin b
  | .stringMethod _ _ _, _, .stringMethod h s m, _ => .stringMethod h s m
  | .mappingMethod _ es _, _, .mappingMethod h hes m, hS => .mappingMethod h (Value.entriesAlike_imp es hes hS) m
  | .host _ _, _, .host key name, _ => .host key name
  | .defined _ _ i, _, .defined d address h, hS => .defined d address (hS i (List.mem_singleton_self i) _ h)

end

/-- Values stay alike when more scopes correspond. -/
theorem Value.alike_mono (hS : S ≤ S') (v : Value) {w : Value} (h : v.Alike S M w) : v.Alike S' M w :=
  v.alike_imp h fun i _ => hS i

theorem Value.allAlike_mono (hS : S ≤ S') (as : List Value) {bs : List Value}
    (h : List.Forall₂ (Value.Alike S M) as bs) : List.Forall₂ (Value.Alike S' M) as bs :=
  Value.allAlike_imp as h fun i _ => hS i

theorem Value.entriesAlike_mono (hS : S ≤ S') (es : List (String × Value)) {fs : List (String × Value)}
    (h : List.Forall₂ (Value.EntryAlike S M) es fs) : List.Forall₂ (Value.EntryAlike S' M) es fs :=
  Value.entriesAlike_imp es h fun i _ => hS i

theorem Function.alike_mono (hS : S ≤ S') (f : Function) {g : Function} (h : f.Alike S M g) : f.Alike S' M g :=
  f.alike_imp h fun i _ => hS i

mutual

/-- Every scope in a value corresponds to one in a value that is alike. -/
theorem Value.exists_of_mem_scopes : ∀ (v : Value) {w}, v.Alike S M w → ∀ i ∈ v.scopes, ∃ j, S i j
  | .undefined, _, _, i, hi => nomatch hi
  | .boolean _, _, _, i, hi => nomatch hi
  | .number _, _, _, i, hi => nomatch hi
  | .string _, _, _, i, hi => nomatch hi
  | .list as, _, .list h, i, hi => Value.exists_of_mem_allScopes as h i hi
  | .mapping es, _, .mapping h, i, hi => Value.exists_of_mem_entriesScopes es h i hi
  | .function f, _, .function h, i, hi => f.exists_of_mem_scopes h i hi

theorem Value.exists_of_mem_allScopes : ∀ (as : List Value) {bs}, List.Forall₂ (Value.Alike S M) as bs →
    ∀ i ∈ Value.allScopes as, ∃ j, S i j
  | [], _, _, i, hi => nomatch hi
  | a :: as, _, .cons h hs, i, hi => (List.mem_append.mp hi).elim (a.exists_of_mem_scopes h i)
    (Value.exists_of_mem_allScopes as hs i)

theorem Value.exists_of_mem_entriesScopes : ∀ (es : List (String × Value)) {fs},
    List.Forall₂ (Value.EntryAlike S M) es fs → ∀ i ∈ Value.entriesScopes es, ∃ j, S i j
  | [], _, _, i, hi => nomatch hi
  | (_, a) :: es, _, .cons (.mk _ h) hs, i, hi => (List.mem_append.mp hi).elim (a.exists_of_mem_scopes h i)
    (Value.exists_of_mem_entriesScopes es hs i)

theorem Function.exists_of_mem_scopes : ∀ (f : Function) {g}, f.Alike S M g → ∀ i ∈ f.scopes, ∃ j, S i j
  | .builtin _, _, _, i, hi => nomatch hi
  | .stringMethod _ _ _, _, _, i, hi => nomatch hi
  | .mappingMethod _ es _, _, .mappingMethod _ hes _, i, hi => Value.exists_of_mem_entriesScopes es hes i hi
  | .host _ _, _, _, i, hi => nomatch hi
  | .defined _ _ _, _, .defined _ _ h, i, hi => ⟨_, List.mem_singleton.mp hi ▸ h⟩

end

end

section
variable {S M : Nat → Nat → Prop}

mutual

/-- A value is like itself where the scopes in it and all marks correspond to themselves. -/
theorem Value.alike_self (hM : ∀ i, M i i) : ∀ v : Value, (∀ i ∈ v.scopes, S i i) → v.Alike S M v
  | .undefined, _ => .undefined
  | .boolean b, _ => .boolean b
  | .number n, _ => .number n
  | .string s, _ => .string s
  | .list vs, h => .list (Value.allAlike_self hM vs h)
  | .mapping es, h => .mapping (Value.entriesAlike_self hM es h)
  | .function f, h => .function (f.alike_self hM h)

theorem Value.allAlike_self (hM : ∀ i, M i i) : ∀ vs : List Value, (∀ i ∈ Value.allScopes vs, S i i) →
    List.Forall₂ (Value.Alike S M) vs vs
  | [], _ => .nil
  | v :: vs, h => .cons (v.alike_self hM fun i hi => h i (List.mem_append_left _ hi))
    (Value.allAlike_self hM vs fun i hi => h i (List.mem_append_right _ hi))

theorem Value.entriesAlike_self (hM : ∀ i, M i i) :
    ∀ es : List (String × Value), (∀ i ∈ Value.entriesScopes es, S i i) →
    List.Forall₂ (Value.EntryAlike S M) es es
  | [], _ => .nil
  | (k, v) :: es, h => .cons (.mk k (v.alike_self hM fun i hi => h i (List.mem_append_left _ hi)))
    (Value.entriesAlike_self hM es fun i hi => h i (List.mem_append_right _ hi))

theorem Function.alike_self (hM : ∀ i, M i i) : ∀ f : Function, (∀ i ∈ f.scopes, S i i) → f.Alike S M f
  | .builtin b, _ => .builtin b
  | .stringMethod i s m, _ => .stringMethod (hM i) s m
  | .mappingMethod i es m, h => .mappingMethod (hM i) (Value.entriesAlike_self hM es h) m
  | .host key name, _ => .host key name
  | .defined d address i, h => .defined d address (h i (List.mem_singleton_self i))

end

end

/-! ### What alike values have in common -/

section
variable {S M : Nat → Nat → Prop}

theorem Function.Alike.name_eq {f g : Function} (h : f.Alike S M g) : f.name = g.name := by
  cases h <;> rfl

theorem Function.Alike.text_eq {f g : Function} (h : f.Alike S M g) : f.text = g.text := by
  cases h <;> rfl

namespace Value

theorem Alike.truthy_eq {v w : Value} (h : v.Alike S M w) : v.truthy = w.truthy := by
  cases h with
  | list h => cases h <;> rfl
  | mapping h => cases h <;> rfl
  | _ => rfl

mutual

theorem textIn_eq (inner : Bool) : ∀ (v : Value) {w}, v.Alike S M w → v.textIn inner = w.textIn inner
  | .undefined, _, .undefined => rfl
  | .boolean _, _, .boolean _ => rfl
  | .number _, _, .number _ => rfl
  | .string _, _, .string _ => rfl
  | .list [], _, .list .nil => rfl
  | .list (a :: as), _, .list (.cons h hs) => by rw [textIn, textIn, a.textIn_eq true h, itemsText_eq _ as hs]
  | .mapping [], _, .mapping .nil => rfl
  | .mapping ((_, a) :: es), _, .mapping (.cons (.mk _ h) hs) => by
    rw [textIn, textIn, a.textIn_eq true h, entriesText_eq _ es hs]
  | .function _, _, .function h => h.text_eq

theorem itemsText_eq (text : String) : ∀ (as : List Value) {bs}, List.Forall₂ (Value.Alike S M) as bs →
    itemsText text as = itemsText text bs
  | [], _, .nil => rfl
  | a :: as, _, .cons h hs => by rw [itemsText, itemsText, a.textIn_eq true h, itemsText_eq _ as hs]

theorem entriesText_eq (text : String) : ∀ (es : List (String × Value)) {fs},
    List.Forall₂ (Value.EntryAlike S M) es fs → entriesText text es = entriesText text fs
  | [], _, .nil => rfl
  | (_, a) :: es, _, .cons (.mk _ h) hs => by
    rw [entriesText, entriesText, a.textIn_eq true h, entriesText_eq _ es hs]

end

theorem Alike.text_eq {v w : Value} (h : v.Alike S M w) : v.text = w.text :=
  v.textIn_eq false h

end Value

/-! ### Comparing

Functions compare by identity, and numbers that correspond one to one are equal on the one side where they are
on the other. -/

/-- Identities that differ in the numbers only. -/
inductive Identity.Alike (scopes marks : Nat → Nat → Prop) : Identity → Identity → Prop
  | builtin (b : Builtin) : Identity.Alike scopes marks (.builtin b) (.builtin b)
  | method {i j} (name : String) (h : marks i j) : Identity.Alike scopes marks (.method i name) (.method j name)
  | host (key : Nat) : Identity.Alike scopes marks (.host key) (.host key)
  | defined {i j} (name : String) (address : Address) (h : scopes i j) :
    Identity.Alike scopes marks (.defined name address i) (.defined name address j)

theorem Function.Alike.identity {f g : Function} (h : f.Alike S M g) : f.identity.Alike S M g.identity := by
  cases h with
  | builtin b => exact .builtin b
  | stringMethod h => exact .method _ h
  | mappingMethod h => exact .method _ h
  | host key => exact .host key
  | defined d address h => exact .defined d.name address h

theorem Identity.Alike.eq_iff (hS : Relator.BiUnique S) (hM : Relator.BiUnique M) {a a' b b' : Identity}
    (ha : a.Alike S M a') (hb : b.Alike S M b') : a = b ↔ a' = b' := by
  cases ha with
  | builtin b => cases hb <;> simp
  | method name h =>
    cases hb with
    | method name' h' => simpa using fun _ => Relator.rel_eq hM h h'
    | _ => simp
  | host key => cases hb <;> simp
  | defined name address h =>
    cases hb with
    | defined name' address' h' => simpa using fun _ _ => Relator.rel_eq hS h h'
    | _ => simp

theorem Function.Alike.same_eq (hS : Relator.BiUnique S) (hM : Relator.BiUnique M) {f f' g g' : Function}
    (hf : f.Alike S M f') (hg : g.Alike S M g') : f.same g = f'.same g' := by
  rw [Function.same, Function.same, Bool.eq_iff_iff, beq_iff_eq, beq_iff_eq]
  exact hf.identity.eq_iff hS hM hg.identity

namespace Value

mutual

/-- Whether two values are equal does not depend on the numbers. -/
theorem same_eq (hS : Relator.BiUnique S) (hM : Relator.BiUnique M) :
    ∀ (v : Value) {v' w w' : Value}, v.Alike S M v' → w.Alike S M w' → v.same w = v'.same w'
  | .undefined, _, _, _, .undefined, hw => by cases hw <;> rfl
  | .boolean _, _, _, _, .boolean _, hw => by cases hw <;> rfl
  | .number _, _, _, _, .number _, hw => by cases hw <;> rfl
  | .string _, _, _, _, .string _, hw => by cases hw <;> rfl
  | .list as, _, _, _, .list h, hw => by
    cases hw with
    | list h' => exact sameItems_eq hS hM as h h'
    | _ => rfl
  | .mapping es, _, _, _, .mapping h, hw => by
    cases hw with
    | mapping h' => exact sameEntries_eq hS hM es h h'
    | _ => rfl
  | .function f, _, _, _, .function h, hw => by
    cases hw with
    | function h' => exact h.same_eq hS hM h'
    | _ => rfl

theorem sameItems_eq (hS : Relator.BiUnique S) (hM : Relator.BiUnique M) :
    ∀ (as : List Value) {as' bs bs' : List Value}, List.Forall₂ (Value.Alike S M) as as' →
    List.Forall₂ (Value.Alike S M) bs bs' → sameItems as bs = sameItems as' bs'
  | [], _, _, _, .nil, hb => by cases hb <;> rfl
  | a :: as, _, _, _, .cons h hs, hb => by
    cases hb with
    | nil => rfl
    | cons h' hs' => rw [sameItems, sameItems, same_eq hS hM a h h', sameItems_eq hS hM as hs hs']

theorem sameEntries_eq (hS : Relator.BiUnique S) (hM : Relator.BiUnique M) :
    ∀ (es : List (String × Value)) {es' fs fs' : List (String × Value)},
    List.Forall₂ (Value.EntryAlike S M) es es' → List.Forall₂ (Value.EntryAlike S M) fs fs' →
    sameEntries es fs = sameEntries es' fs'
  | [], _, _, _, .nil, hf => by cases hf <;> rfl
  | (_, a) :: es, _, _, _, .cons (.mk _ h) hs, hf => by
    cases hf with
    | nil => rfl
    | cons h' hs' =>
      obtain ⟨key, h'⟩ := h'
      rw [sameEntries, sameEntries, same_eq hS hM a h h', sameEntries_eq hS hM es hs hs']

end

end Value
end

end TemplatedSql
