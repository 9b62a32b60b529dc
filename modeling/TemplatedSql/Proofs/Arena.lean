import Mathlib.Data.List.DropRight
import TemplatedSql.Scope

/-! # What the operations on an arena change

Each operation is described by the scope it leaves in every slot. A new scope takes the slot after the
last one, so it never touches a scope that is there; a released slot is empty, and taking empty slots off
the end empties no other; a variable changes the scope it is bound in and keeps its parent. A name that is looked up
has the same value wherever the scopes around are the same. -/

namespace TemplatedSql
namespace Arena

variable {arena : Arena} {i k : Nat} {s : Scope}

theorem lt_length_of_scope? (h : arena.scope? i = some s) : i < arena.length := by
  have hslot : arena[i]? = some (some s) := Option.join_eq_some_iff.mp h
  exact (List.getElem?_eq_some_iff.mp hslot).1

theorem scope?_of_length_le (h : arena.length ≤ i) : arena.scope? i = none := by
  simp [scope?, List.getElem?_eq_none h]

@[simp] theorem scope?_length (arena : Arena) : arena.scope? arena.length = none :=
  scope?_of_length_le (Nat.le_refl _)

theorem isLive_iff : arena.isLive i = true ↔ ∃ s, arena.scope? i = some s :=
  Option.isSome_iff_exists

theorem isLive_of_scope? (h : arena.scope? i = some s) : arena.isLive i = true :=
  isLive_iff.mpr ⟨s, h⟩

/-! ### A new scope -/

@[simp] theorem length_push (arena : Arena) (parent : Option Nat) : (arena.push parent).length = arena.length + 1 := by
  simp [push]

theorem scope?_push (arena : Arena) (parent : Option Nat) (k : Nat) :
    (arena.push parent).scope? k = if k = arena.length then some ⟨[], parent⟩ else arena.scope? k := by
  rcases Nat.lt_trichotomy k arena.length with h | rfl | h
  · rw [if_neg (Nat.ne_of_lt h)]
    simp [scope?, push, List.getElem?_append_left h]
  · simp [scope?, push]
  · rw [if_neg (Nat.ne_of_gt h), scope?_of_length_le (Nat.le_of_lt h)]
    exact scope?_of_length_le (by rw [length_push]; omega)

@[simp] theorem scope?_push_length (arena : Arena) (parent : Option Nat) :
    (arena.push parent).scope? arena.length = some ⟨[], parent⟩ := by
  rw [scope?_push, if_pos rfl]

theorem scope?_push_of_ne (parent : Option Nat) (h : k ≠ arena.length) :
    (arena.push parent).scope? k = arena.scope? k := by
  rw [scope?_push, if_neg h]

/-- A scope that was there is not touched by a new one. -/
theorem scope?_push_of_scope? (parent : Option Nat) (h : arena.scope? i = some s) :
    (arena.push parent).scope? i = some s := by
  rw [scope?_push_of_ne parent (Nat.ne_of_lt (lt_length_of_scope? h)), h]

/-! ### A scope that ends -/

/-- Taking empty slots off the end empties no slot that held a scope. -/
theorem scope?_trim (arena : Arena) (k : Nat) : (trim arena).scope? k = arena.scope? k := by
  show Arena.scope? (List.rdropWhile Option.isNone arena) k = _
  induction arena using List.reverseRecOn with
  | nil => rfl
  | append_singleton l slot ih =>
    cases slot with
    | some s => rw [List.rdropWhile_concat_neg Option.isNone l (some s) (by simp)]
    | none =>
      rw [List.rdropWhile_concat_pos Option.isNone l none rfl, ih]
      rcases Nat.lt_trichotomy k l.length with h | rfl | h
      · simp [scope?, List.getElem?_append_left h]
      · simp [scope?]
      · rw [scope?_of_length_le (Nat.le_of_lt h), scope?_of_length_le (by simp; omega)]

theorem scope?_release (arena : Arena) (i k : Nat) :
    (arena.release i).scope? k = if k = i then none else arena.scope? k := by
  rw [release, scope?_trim]
  unfold scope?
  rw [List.getElem?_set]
  split <;> split <;> simp_all

theorem scope?_release_of_ne (h : k ≠ i) : (arena.release i).scope? k = arena.scope? k := by
  rw [scope?_release, if_neg h]

/-- The last slot holds a scope. -/
def EndsLive (arena : Arena) : Prop :=
  arena.isLive (arena.length - 1) = true

theorem endsLive_push (arena : Arena) (parent : Option Nat) : (arena.push parent).EndsLive := by
  rw [EndsLive, length_push, Nat.add_sub_cancel]
  exact isLive_of_scope? (scope?_push_length arena parent)

/-- Where a scope is left, the last slot holds one once the empty slots are taken off the end. -/
theorem endsLive_trim (h : arena.isLive i = true) : (trim arena).EndsLive := by
  have hne : List.rdropWhile Option.isNone arena ≠ [] := by
    intro hnil
    obtain ⟨s, hs⟩ := isLive_iff.mp h
    have : (trim arena).scope? i = some s := (scope?_trim arena i).trans hs
    rw [show trim arena = [] from hnil] at this
    cases this
  have hlast := List.rdropWhile_last_not Option.isNone arena hne
  rw [List.getLast_eq_getElem hne] at hlast
  show Option.isSome (Arena.scope? (List.rdropWhile Option.isNone arena)
    ((List.rdropWhile Option.isNone arena).length - 1)) = true
  rw [scope?, List.getElem?_eq_getElem (Nat.sub_lt (List.length_pos_of_ne_nil hne) Nat.one_pos)]
  simpa [Option.isSome_iff_ne_none] using hlast

theorem endsLive_release (h : arena.isLive i = true) (hk : i ≠ k) : (arena.release k).EndsLive := by
  refine endsLive_trim (i := i) ?_
  obtain ⟨s, hs⟩ := isLive_iff.mp h
  refine isLive_of_scope? (s := s) ?_
  rw [← scope?_trim]
  exact (scope?_release_of_ne hk).trans hs

/-! ### A variable -/

theorem scope?_bind (arena : Arena) (i : Nat) (name : String) (v : Value) (k : Nat) :
    (arena.bind i name v).scope? k =
      if k = i then (arena.scope? i).map (fun s => { s with bindings := s.bindings.set name v })
      else arena.scope? k := by
  unfold bind
  cases h : arena.scope? i with
  | none =>
    by_cases hk : k = i
    · simp [hk, h]
    · simp [hk]
  | some s =>
    have hlt := lt_length_of_scope? h
    by_cases hk : k = i
    · subst hk
      simp [scope?, hlt]
    · simp [scope?, hk, Ne.symm hk]

theorem scope?_bind_of_ne {name : String} {v : Value} (h : k ≠ i) :
    (arena.bind i name v).scope? k = arena.scope? k := by
  rw [scope?_bind, if_neg h]

theorem scope?_bind_self {name : String} {v : Value} (h : arena.scope? i = some s) :
    (arena.bind i name v).scope? i = some { s with bindings := s.bindings.set name v } := by
  rw [scope?_bind, if_pos rfl, h]
  rfl

@[simp] theorem length_bind (arena : Arena) (i : Nat) (name : String) (v : Value) :
    (arena.bind i name v).length = arena.length := by
  unfold bind
  split <;> simp

@[simp] theorem isLive_bind (arena : Arena) (i : Nat) (name : String) (v : Value) (k : Nat) :
    (arena.bind i name v).isLive k = arena.isLive k := by
  unfold isLive
  rw [scope?_bind]
  split <;> simp_all

theorem endsLive_bind {name : String} {v : Value} (h : arena.EndsLive) : (arena.bind i name v).EndsLive := by
  rw [EndsLive, length_bind, isLive_bind]
  exact h

/-! ### Names in a scope -/

/-- What a name is bound to in a slot. -/
def bound? (arena : Arena) (i : Nat) (name : String) : Option Value :=
  (arena.scope? i).bind fun s => s.bindings.get? name

theorem bound?_of_scope? (h : arena.scope? i = some s) (name : String) : arena.bound? i name = s.bindings.get? name := by
  rw [bound?, h]
  rfl

theorem bound?_of_not_live (h : arena.isLive i = false) (name : String) : arena.bound? i name = none := by
  rw [bound?, Option.isNone_iff_eq_none.mp (Option.isSome_eq_false_iff.mp h)]
  rfl

theorem bound?_push (arena : Arena) (parent : Option Nat) (i : Nat) (name : String) :
    (arena.push parent).bound? i name = arena.bound? i name := by
  rw [bound?, bound?, scope?_push]
  split
  · rename_i heq
    rw [heq, scope?_length]
    rfl
  · rfl

theorem bound?_release (arena : Arena) (k i : Nat) (name : String) :
    (arena.release k).bound? i name = if i = k then none else arena.bound? i name := by
  rw [bound?, bound?, scope?_release]
  split <;> rfl

theorem bound?_bind (h : arena.scope? k = some s) (other : String) (v : Value) (i : Nat) (name : String) :
    (arena.bind k other v).bound? i name = if i = k ∧ name = other then some v else arena.bound? i name := by
  rw [bound?, bound?, scope?_bind, h]
  by_cases hi : i = k
  · rw [if_pos hi, hi, h]
    simp only [Option.map_some, Option.bind_some, Table.get?_set, true_and]
  · rw [if_neg hi, if_neg fun hand => hi hand.1]

theorem eq_or_bound?_of_bind {other name : String} {v w : Value} (h : (arena.bind k other v).bound? i name = some w) :
    w = v ∨ arena.bound? i name = some w := by
  cases hs : arena.scope? k with
  | none =>
    rw [bind, hs] at h
    exact .inr h
  | some s =>
    rw [bound?_bind hs] at h
    split at h
    · exact .inl (Option.some.inj h).symm
    · exact .inr h

/-! ### Looking a name up -/

/-- What is found for a name is bound to it in some scope. -/
theorem exists_bound?_of_findFrom {name : String} {v : Value} {fuel : Nat} (h : arena.findFrom name fuel i = some v) :
    ∃ j, arena.bound? j name = some v := by
  induction fuel generalizing i with
  | zero => cases h
  | succ fuel ih =>
    rw [findFrom] at h
    cases hs : arena.scope? i with
    | none =>
      rw [hs] at h
      cases h
    | some s =>
      simp only [hs] at h
      split at h
      · rename_i hv
        cases h
        exact ⟨i, (bound?_of_scope? hs name).trans hv⟩
      · obtain ⟨j, -, hj⟩ := Option.bind_eq_some_iff.mp h
        exact ih hj

/-- Where the scopes of an arena are in order and another holds them too, a name has the same value in both. -/
theorem findFrom_eq {a b : Arena}
    (hparent : ∀ i s p, a.scope? i = some s → s.parent = some p → a.isLive p = true ∧ p < i)
    (hkept : ∀ i s, a.scope? i = some s → b.scope? i = some s) (name : String) {m n i : Nat}
    (hi : a.isLive i = true) (hm : i < m) (hn : i < n) : a.findFrom name m i = b.findFrom name n i := by
  -- A parent comes before its child, so what is left of the numbers is enough for the scopes around.
  induction i using Nat.strong_induction_on generalizing m n with
  | _ i ih =>
    obtain ⟨m, rfl⟩ := Nat.exists_eq_succ_of_ne_zero (Nat.ne_zero_of_lt hm)
    obtain ⟨n, rfl⟩ := Nat.exists_eq_succ_of_ne_zero (Nat.ne_zero_of_lt hn)
    obtain ⟨s, hs⟩ := isLive_iff.mp hi
    rw [findFrom, findFrom, hs, hkept i s hs]
    cases hname : s.bindings.get? name with
    | some v => simp only [hname]
    | none =>
      simp only [hname]
      cases hp : s.parent with
      | none => rfl
      | some p =>
        obtain ⟨hlive, hlt⟩ := hparent i s p hs hp
        exact ih p hlt hlive (Nat.lt_of_lt_of_le hlt (Nat.le_of_lt_succ hm))
          (Nat.lt_of_lt_of_le hlt (Nat.le_of_lt_succ hn))

end Arena
end TemplatedSql
